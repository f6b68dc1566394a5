import Rustkube.Cron
import Rustkube.WorkQueue

/- The passes of a controller over its objects, and the deadlines they ask for. -/
namespace Rustkube.Requeue

open Function Transition WorkQueue

/-- What `requeue_at_time` has read of the wall clock, before it reads the monotonic one. -/
structure Reading where
  target : Int
  readAt : Int
  delay : Int

structure Pass where
  started : Int
  reading : Option Reading

/-- The queue at a time of the monotonic clock and the passes under way; with the instants that the
latest pass of each key has asked for. -/
structure State (Key : Type) where
  queue : WorkQueue Key
  now : Int
  active : Key → Option Pass
  failures : Key → Nat
  asked : List (Key × Int)

inductive Action (Key : Type) where
  | tick (elapsed : Nat)
  /-- something the object depends on has changed -/
  | add (key : Key)
  /-- the loop looks for work -/
  | next
  | requeueAtTime (key : Key) (timestamp : Int)
  | requeueDeadline (key : Key) (start : Int) (seconds : Nat)
  /-- the delay is added to the monotonic clock's time -/
  | arm (key : Key)
  | requeueAfter (key : Key) (delay : Nat)
  | finish (key : Key) (failed : Bool)

section

variable {Key : Type} [DecidableEq Key]

-- How far the wall clock is ahead of the monotonic one, and the last instant there is.
variable (offset latest : Int)

/-- `start` and the seconds, where both fit. -/
def deadlineAt (start : Int) (seconds : Nat) : Option Int :=
  if seconds ≤ (2 ^ 63 - 1) / 1000 ∧ start + seconds * Cron.second ≤ latest then
    some (start + seconds * Cron.second)
  else none

/-- The wait after so many failures in a row. -/
def retryDelay (attempts : Nat) : Int := min (100 * 2 ^ min attempts 8) 30000 * 10 ^ 6

variable (state : State Key) (key : Key)

/-- An instant that has passed is not a delay. -/
def requeueAtTime (pass : Pass) (timestamp : Int) : State Key :=
  let delay := timestamp - (state.now + offset)
  if 0 ≤ delay then
    { state with
      active := Function.update state.active key
        (some { pass with reading := some ⟨timestamp, state.now, delay⟩ }) }
  else { state with asked := (key, timestamp) :: state.asked }

def begin : State Key :=
  match state.queue.next state.now with
  | (queue, some key) => { state with
      queue := queue.cancelDeadline key
      active := Function.update state.active key (some ⟨state.now, none⟩)
      asked := state.asked.filter (·.1 ≠ key) }
  | (queue, none) => { state with queue }

/-- A pass that failed is tried again after a while. -/
def finish (failed : Bool) : State Key :=
  let attempts := state.failures key + 1
  let queue := if failed then state.queue.addAt key (state.now + retryDelay attempts)
    else state.queue
  { state with
    queue := queue.done key
    active := Function.update state.active key none
    failures := Function.update state.failures key (if failed then attempts else 0) }

def step : Action Key → Option (State Key)
  | .tick elapsed => some { state with now := state.now + elapsed }
  | .add key => some { state with queue := state.queue.add key }
  | .next => some (begin state)
  | .requeueAtTime key timestamp =>
    match state.active key with
    | some ⟨started, none⟩ => some (requeueAtTime offset state key ⟨started, none⟩ timestamp)
    | _ => none
  | .requeueDeadline key start seconds =>
    match state.active key, deadlineAt latest start seconds with
    | some ⟨started, none⟩, some timestamp =>
      some (requeueAtTime offset state key ⟨started, none⟩ timestamp)
    | some ⟨_, none⟩, none => some state
    | _, _ => none
  | .arm key =>
    match state.active key with
    | some ⟨started, some reading⟩ => some { state with
        queue := state.queue.addAt key (state.now + reading.delay)
        active := Function.update state.active key (some ⟨started, none⟩)
        asked := (key, reading.target) :: state.asked }
    | _ => none
  | .requeueAfter key delay =>
    match state.active key with
    | some ⟨_, none⟩ => some { state with queue := state.queue.addAt key (state.now + delay) }
    | _ => none
  | .finish key failed =>
    match state.active key with
    | some ⟨_, none⟩ => some (finish state key failed)
    | _ => none

/-- The instant that an action hands over. -/
def handed : Action Key → Option (Key × Int)
  | .requeueAtTime key timestamp => some (key, timestamp)
  | .requeueDeadline key start seconds => (deadlineAt latest start seconds).map (key, ·)
  | _ => none

/-- A pass asks for instants after its start. -/
def Permitted (action : Action Key) : Prop :=
  (handed latest action).all (fun asked =>
    (state.active asked.1).all fun pass => decide (pass.started + offset < asked.2)) = true

instance (action : Action Key) : Decidable (Permitted offset latest state action) :=
  inferInstanceAs (Decidable (_ = true))

/-- The instant has not passed when it is handed over, and no time passes between the two clocks'
being read. -/
def Timely : Action Key → Prop
  | .arm key => (state.active key).all (fun pass =>
      pass.reading.all fun reading => decide (reading.readAt = state.now)) = true
  | action => (handed latest action).all (fun asked => decide (state.now + offset ≤ asked.2)) = true

instance (action : Action Key) : Decidable (Timely offset latest state action) :=
  match action with
  | .arm _ | .tick _ | .add _ | .next | .requeueAtTime _ _ | .requeueDeadline _ _ _
  | .requeueAfter _ _
  | .finish _ _ => inferInstanceAs (Decidable (_ = true))

end

section

variable {Key : Type} [DecidableEq Key] {offset latest : Int}

/-- A pass of the key to come by that time of the wall clock. -/
def Promised (offset : Int) (queue : WorkQueue Key) (asked : Key × Int) : Prop :=
  (queue.entryOf asked.1).Covers (asked.2 - offset)

structure Invariant (offset : Int) (state : State Key) : Prop where
  sound : state.queue.Sound
  working : ∀ key pass, state.active key = some pass → (state.queue.entryOf key).processing = true
  exact : ∀ key pass reading, state.active key = some pass → pass.reading = some reading →
    reading.delay = reading.target - (reading.readAt + offset)
  promised : ∀ asked ∈ state.asked, Promised offset state.queue asked

variable {state after : State Key} {key : Key} {pass : Pass} {action : Action Key}
  {asked : Key × Int}

theorem add_promised (promised : Promised offset state.queue asked) :
    Promised offset (state.queue.add key) asked := by
  rw [Promised, entryOf_add]
  split_ifs
  · exact WorkQueue.Entry.added_covers _ _
  · exact promised

variable {deadline : Int}

theorem addAt_promised (promised : Promised offset state.queue asked) :
    Promised offset (state.queue.addAt key deadline) asked := by
  rw [Promised, entryOf_addAt]
  split_ifs with same
  · rw [← same]
    rcases promised with queued | busy | ⟨old, isOld, early⟩
    · exact .inl queued
    · exact .inr (.inl busy)
    · refine .inr (.inr ⟨min old deadline, ?_, (min_le_left _ _).trans early⟩)
      have isDeadline : (state.queue.entryOf asked.1).deadline = some old := isOld
      simp [earliest, isDeadline]
  · exact promised

theorem addAt_promises {time : Int} (early : deadline + offset ≤ time) :
    Promised offset (state.queue.addAt key deadline) (key, time) := by
  rw [Promised, entryOf_addAt, if_pos rfl]
  refine .inr (.inr ⟨_, rfl, ?_⟩)
  cases (state.queue.entryOf key).deadline with
  | none =>
    dsimp only [Option.elim]
    omega
  | some old =>
    dsimp only [Option.elim]
    omega

omit [DecidableEq Key] in
theorem Invariant.queued {queue : WorkQueue Key} (inv : Invariant offset state)
    (sound : queue.Sound)
    (processing : ∀ key, (queue.entryOf key).processing = (state.queue.entryOf key).processing)
    (promised : ∀ asked, Promised offset state.queue asked → Promised offset queue asked) :
    Invariant offset { state with queue } :=
  ⟨sound, fun key pass found => (processing key).trans (inv.working key pass found), inv.exact,
    fun asked found => promised asked (inv.promised asked found)⟩

omit [DecidableEq Key] in
theorem Invariant.active {active : Key → Option Pass} (inv : Invariant offset state)
    (kept : ∀ key pass, active key = some pass → (state.active key).isSome)
    (exact : ∀ key pass reading, active key = some pass → pass.reading = some reading →
      reading.delay = reading.target - (reading.readAt + offset)) :
    Invariant offset { state with active } := by
  refine ⟨inv.sound, fun key pass found => ?_, exact, inv.promised⟩
  have ⟨before, was⟩ := Option.isSome_iff_exists.mp (kept key pass found)
  exact inv.working key before was

variable (inv : Invariant offset state)

include inv

theorem requeueAtTime_invariant (running : state.active key = some pass) {timestamp : Int}
    (timely : state.now + offset ≤ timestamp) :
    Invariant offset (requeueAtTime offset state key pass timestamp) := by
  have delay : 0 ≤ timestamp - (state.now + offset) := by omega
  simp only [requeueAtTime, if_pos delay]
  refine inv.active (fun other found isFound => ?_)
    (fun other found reading isFound isReading => ?_)
  all_goals
    rw [update_apply] at isFound
    split_ifs at isFound with same
  · simp [same, running]
  · simp [isFound]
  · cases isFound
    cases isReading
    rfl
  · exact inv.exact other found reading isFound isReading

theorem next_invariant : Invariant offset (begin state) := by
  have sound := inv.sound.next state.now
  have processing : ∀ key, ((state.queue.next state.now).1.entryOf key).processing = _ :=
    fun _ => next_processing
  have covers : ∀ asked ∈ state.asked, (state.queue.next state.now).2 ≠ some asked.1 →
      Promised offset (state.queue.next state.now).1 asked :=
    fun asked found kept => next_covers (inv.promised asked found) kept
  unfold begin
  split
  · next queue key isNext =>
    rw [isNext] at sound processing covers
    have others :
        ∀ other, other ≠ key → (queue.cancelDeadline key).entryOf other = queue.entryOf other :=
      fun other different => (entryOf_cancelDeadline sound).trans (if_neg different)
    refine ⟨sound.cancelDeadline key, fun other pass found => ?_,
      fun other pass reading found isReading => ?_, fun asked member => ?_⟩
    · rw [entryOf_cancelDeadline sound]
      dsimp only at found
      rw [update_apply] at found
      split_ifs at found ⊢ with same
      · simp [processing]
      · simp [processing, inv.working other pass found]
    · dsimp only at found
      rw [update_apply] at found
      split_ifs at found with same
      · cases found
        cases isReading
      · exact inv.exact other pass reading found isReading
    · -- What the key's earlier pass had asked for is not asked for any more.
      have ⟨earlier, isOther⟩ := List.mem_filter.mp member
      have different : asked.1 ≠ key := of_decide_eq_true isOther
      rw [Promised, others asked.1 different]
      exact covers asked earlier fun same => different (Option.some.inj same).symm
  · next queue isNext =>
    rw [isNext] at sound processing covers
    exact ⟨sound, fun key pass found => by simp [processing, inv.working key pass found], inv.exact,
      fun asked member => covers asked member nofun⟩

theorem Invariant.done (running : state.active key = some pass) (failures : Key → Nat) :
    Invariant offset { state with
      queue := state.queue.done key
      active := update state.active key none
      failures } := by
  have processing := inv.working key pass running
  have entries : ∀ other, (state.queue.done key).entryOf other = _ :=
    fun _ => entryOf_done inv.sound processing
  refine ⟨inv.sound.done processing, fun other pass found => ?_,
    fun other pass reading found isReading => ?_, fun asked member => ?_⟩
  · dsimp only at found ⊢
    rw [update_apply] at found
    split_ifs at found with same
    rw [entries, if_neg same]
    exact inv.working other pass found
  · dsimp only at found
    rw [update_apply] at found
    split_ifs at found with same
    exact inv.exact other pass reading found isReading
  · have promised := inv.promised asked member
    rw [Promised, entries]
    split_ifs with same
    · exact finished_covers (same ▸ promised)
    · exact promised

theorem Invariant.addAt (key : Key) (deadline : Int) :
    Invariant offset { state with queue := state.queue.addAt key deadline } := by
  refine inv.queued (inv.sound.addAt key deadline) (fun other => ?_) fun _ => addAt_promised
  rw [entryOf_addAt]
  split_ifs with same
  · rw [same]
  · rfl

theorem finish_invariant (running : state.active key = some pass) (failed : Bool) :
    Invariant offset (finish state key failed) := by
  cases failed with
  | false => exact inv.done running _
  | true => exact (inv.addAt key _).done running _

theorem arm_invariant {started : Int} {reading : Reading}
    (running : state.active key = some ⟨started, some reading⟩)
    (timely : reading.readAt = state.now) :
    Invariant offset { state with
      queue := state.queue.addAt key (state.now + reading.delay)
      active := update state.active key (some ⟨started, none⟩)
      asked := (key, reading.target) :: state.asked } := by
  have delay := inv.exact key _ reading running rfl
  have armed := inv.addAt key (state.now + reading.delay)
  refine ⟨armed.sound, fun other pass found => ?_, fun other pass found isFound isReading => ?_, ?_⟩
  · dsimp only at found
    rw [update_apply] at found
    split_ifs at found with same
    · exact same ▸ armed.working key _ running
    · exact armed.working other pass found
  · dsimp only at isFound
    rw [update_apply] at isFound
    split_ifs at isFound with same
    · cases isFound
      cases isReading
    · exact inv.exact other pass found isFound isReading
  · exact List.forall_mem_cons.mpr ⟨addAt_promises (by omega), armed.promised⟩

theorem step_invariant (timely : Timely offset latest state action)
    (taken : step offset latest state action = some after) : Invariant offset after := by
  cases action with
  | tick elapsed =>
    cases taken
    exact { inv with }
  | add key =>
    cases taken
    refine inv.queued (inv.sound.add key) (fun other => ?_) fun _ => add_promised
    rw [entryOf_add]
    split_ifs with same
    · rw [same, WorkQueue.Entry.added_processing]
    · rfl
  | next =>
    cases taken
    exact next_invariant inv
  | requeueAtTime key timestamp =>
    simp only [step] at taken
    split at taken
    · next running =>
      cases taken
      exact requeueAtTime_invariant inv running (by simpa [Timely, handed] using timely)
    · cases taken
  | requeueDeadline key start seconds =>
    simp only [step] at taken
    split at taken
    · next running isDeadline =>
      cases taken
      exact requeueAtTime_invariant inv running (by simpa [Timely, handed, isDeadline] using timely)
    · cases taken
      exact inv
    · cases taken
  | arm key =>
    simp only [step] at taken
    split at taken
    · next running =>
      cases taken
      exact arm_invariant inv running (by simpa [Timely, running] using timely)
    · cases taken
  | requeueAfter key delay =>
    simp only [step] at taken
    split at taken
    · cases taken
      exact inv.addAt key _
    · cases taken
  | finish key failed =>
    simp only [step] at taken
    split at taken
    · next running =>
      cases taken
      exact finish_invariant inv running failed
    · cases taken

end

variable {Key : Type} [DecidableEq Key] {offset latest : Int}

/-- A controller that has not begun. -/
def fresh (now : Int) : State Key := ⟨.empty, now, fun _ => none, fun _ => 0, []⟩

omit [DecidableEq Key] in
theorem fresh_invariant (now : Int) : Invariant offset (fresh now : State Key) :=
  ⟨sound_empty, nofun, nofun, nofun⟩

/-- A further pass of the key waits, is due when this one ends, or is armed for no later than
that. -/
def Pending (offset : Int) (state : State Key) (asked : Key × Int) : Prop :=
  asked.1 ∈ state.queue.ready ∨
    (state.queue.entryOf asked.1).processing = true ∧ (state.queue.entryOf asked.1).dirty = true ∨
    ∃ deadline, deadline + offset ≤ asked.2 ∧ (deadline, asked.1) ∈ state.queue.deadlines

theorem deadline_not_dropped {now : Int} {state : State Key}
    (reached : Transition.Reaches (step offset latest)
      (fun state action => Permitted offset latest state action ∧ Timely offset latest state action)
      (fresh now) state) :
    ∀ asked ∈ state.asked, Pending offset state asked := by
  have inv : Invariant offset state := reached.invariant (fresh_invariant now)
    fun _ _ _ inv allowed taken => step_invariant inv allowed.2 taken
  intro asked member
  rcases inv.promised asked member with queued | again | ⟨deadline, isDeadline, early⟩
  · exact .inl ((inv.sound.ready asked.1).mpr queued)
  · exact .inr (.inl again)
  · exact .inr (.inr ⟨deadline, by omega, (inv.sound.armed deadline asked.1).mpr isDeadline⟩)

/-- A pass at time 0 asks for time 5 at time 3. -/
def asksInTime : List (Action Unit) :=
  [.add (), .next, .tick 3, .requeueAtTime () 5, .arm (), .finish () false]

theorem deadline_not_dropped_in_time :
    ∃ state, Transition.Reaches (step 0 0)
        (fun state action => Permitted 0 0 state action ∧ Timely 0 0 state action)
        (fresh 0 : State Unit) state ∧
      (decide (((), 5) ∈ state.asked)) = true ∧ Pending 0 state ((), 5) := by
  refine exists_reaches_of asksInTime (fun state => decide (((), 5) ∈ state.asked))
    (by decide +kernel) fun state reached asked => ?_
  exact ⟨asked, deadline_not_dropped reached _ (of_decide_eq_true asked)⟩

/-- The pass asks for time 5 at time 6; or time passes before its delay is armed. -/
theorem deadline_dropped :
    (∃ state, Transition.Reaches (step 0 0) (Permitted 0 0) (fresh 0 : State Unit) state ∧
      (decide (((), 5) ∈ state.asked) && state.queue.ready.isEmpty &&
        state.queue.deadlines.isEmpty && !(state.queue.entryOf ()).dirty) = true) ∧
    ∃ state, Transition.Reaches (step 0 0) (Permitted 0 0) (fresh 0 : State Unit) state ∧
      (decide (((), 5) ∈ state.asked) && state.queue.ready.isEmpty &&
        decide (state.queue.deadlines = [(6, ())]) && !(state.queue.entryOf ()).dirty) = true := by
  constructor
  · exact exists_reaches [.add (), .next, .tick 6, .requeueAtTime () 5, .finish () false]
      (by decide +kernel)
  · exact exists_reaches
      [.add (), .next, .tick 3, .requeueAtTime () 5, .tick 1, .arm (), .finish () false]
        (by decide +kernel)

end Rustkube.Requeue
