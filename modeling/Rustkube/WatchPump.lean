import Rustkube.WatchCache

namespace Rustkube.WatchCache

open Window List

/-- The event the pump is at work on. -/
def Pump.event : Pump → List Numbered
  | .received seq event => if event.isError then [] else [(seq, event)]
  | .recorded seq event => [(seq, event)]
  | .revised seq event => [(seq, event)]
  | .pushed seq event => [(seq, event)]
  | _ => []

/-- The event that is in the ring and not yet sent. -/
def Pump.inRing : Pump → List Numbered
  | .pushed seq event => [(seq, event)]
  | _ => []

/-- The pump is past its loop and has marked the cache, or was aborted. -/
def Pump.over : Pump → Bool
  | .terminated => true
  | .reported => true
  | .done => true
  | _ => false

def Freshness.over : Freshness → Bool
  | .terminated _ => true
  | .reported => true
  | .removed => true
  | _ => false

def genuine (entry : Numbered) : Bool := !entry.2.isError

attribute [simp] Pump.event Pump.over Freshness.over genuine

namespace System

variable (system : System)

def sentEvents : List Numbered := system.cache.sent.filter genuine

/-- The events of the pump: every one it has put into the ring. -/
def pumped : List Numbered := system.sentEvents ++ system.pump.inRing

/-- Those, and the one it is at work on. -/
def taken : List Numbered := system.sentEvents ++ system.pump.event

end System

/-- The number and the revision of each event the pump took. -/
def System.stamps (system : System) : List (Nat × Nat) :=
  system.taken.map fun entry => (entry.1, entry.2.revision)

/-- What the pump has done since the log had `first` writes. -/
structure Pumping (first : Nat) (system : System) : Prop where
  opened : first ≤ system.delivered
  within : system.delivered ≤ system.store.log.length
  revisions : system.stamps.map (·.2) =
    ((system.store.log.take system.delivered).drop first).map (·.revision)
  numbered : system.stamps.Pairwise fun earlier later => earlier.1 < later.1
  allotted : ∀ stamp ∈ system.stamps, 0 < stamp.1 ∧ stamp.1 < system.cache.nextSeq
  next : 0 < system.cache.nextSeq
  working : ∀ entry ∈ system.pump.event, genuine entry = true
  ring : system.cache.ring = Window.newest RING_CAPACITY system.pumped
  pumpOver : system.pump.over = true → system.cache.terminated = true
  freshnessOver : system.freshness.over = true → system.cache.terminated = true
  abortOver : system.aborted = true → system.cache.terminated = true

theorem Pump.inRing_sublist (pump : Pump) : pump.inRing.Sublist pump.event := by
  cases pump <;> simp [inRing]

theorem System.pumped_sublist (system : System) : system.pumped.Sublist system.taken :=
  (Sublist.refl _).append system.pump.inRing_sublist

theorem ring_positive : 0 < RING_CAPACITY := by decide

namespace Pumping

attribute [local simp] System.stamps System.taken System.sentEvents System.numbered

variable {first : Nat} {system after : System}

attribute [local simp] System.pumped

theorem opened_start (store : EventStore) (now : Nat) :
    Pumping store.log.length (System.opened store now) := by
  constructor <;> simp [System.opened, Pump.inRing, newest]

variable (inv : Pumping first system)

include inv

/-- A step that takes nothing off the upstream watch. -/
theorem carry (stamps : after.stamps = system.stamps) (store : after.store = system.store)
    (delivered : after.delivered = system.delivered)
    (nextSeq : system.cache.nextSeq ≤ after.cache.nextSeq)
    (working : ∀ entry ∈ after.pump.event, genuine entry = true)
    (ring : after.cache.ring = newest RING_CAPACITY after.pumped)
    (pumpOver : after.pump.over = true → after.cache.terminated = true)
    (freshnessOver : after.freshness.over = true → after.cache.terminated = true)
    (abortOver : after.aborted = true → after.cache.terminated = true) : Pumping first after where
  opened := by rw [delivered]; exact inv.opened
  within := by rw [delivered, store]; exact inv.within
  revisions := by rw [stamps, store, delivered]; exact inv.revisions
  numbered := by rw [stamps]; exact inv.numbered
  allotted := by
    intro stamp member
    rw [stamps] at member
    have bounds := inv.allotted stamp member
    omega
  next := Nat.lt_of_lt_of_le inv.next nextSeq
  working
  ring
  pumpOver
  freshnessOver
  abortOver

theorem write {key : String} {value : Option Storage.Bytes} :
    Pumping first { system with store := system.store.write key value } := by
  have within := inv.within
  refine { inv with within := ?_, revisions := ?_ }
  · simp only [EventStore.write, length_append]
    omega
  · simp only [EventStore.write, take_append_of_le_length within]
    exact inv.revisions

theorem taking {change : Change} (receiving : system.pump = .receiving)
    (found : system.store.log[system.delivered]? = some change) {event : WatchEvent}
    (revision : event.revision = change.revision) (notError : event.isError = false) :
    Pumping first ({ system with delivered := system.delivered + 1 }.numbered event) := by
  have ⟨inside, isChange⟩ := List.getElem?_eq_some_iff.mp found
  have opened := inv.opened
  have next := inv.next
  have stamps : ({ system with delivered := system.delivered + 1 }.numbered event).stamps =
      system.stamps ++ [(system.cache.nextSeq, change.revision)] := by
    simp [receiving, notError, revision]
  have longer : (system.store.log.take (system.delivered + 1)).drop first =
      (system.store.log.take system.delivered).drop first ++ [change] := by
    rw [take_add_one, found, Option.toList_some, drop_append_of_le_length]
    rw [length_take]
    omega
  constructor
  · exact Nat.le_succ_of_le opened
  · exact inside
  · rw [stamps, map_append, inv.revisions]
    simp [longer]
  · rw [stamps, pairwise_append]
    refine ⟨inv.numbered, pairwise_singleton _ _, ?_⟩
    intro earlier member later appended
    rw [mem_singleton.mp appended]
    exact (inv.allotted earlier member).2
  · intro stamp member
    rw [stamps] at member
    simp only [System.numbered]
    rcases mem_append.mp member with old | appended
    · have bounds := inv.allotted stamp old
      omega
    · rw [mem_singleton.mp appended]
      omega
  · exact Nat.succ_pos _
  · simp [notError]
  · have ring := inv.ring
    simp only [System.pumped, receiving] at ring
    exact ring
  · simp
  · exact inv.freshnessOver
  · exact inv.abortOver

theorem receive {upstream : Upstream} (received : system.receive upstream = some after) :
    Pumping first after := by
  have ring := inv.ring
  unfold System.receive at received
  split at received
  · rename_i receiving
    split at received
    · rename_i change found
      cases received
      exact inv.taking receiving found (Change.event_revision _ _) (Change.event_isError _ _)
    · simp at received
  · rename_i receiving
    cases received
    refine inv.carry ?_ rfl rfl (Nat.le_succ _) ?_ ?_ ?_ inv.freshnessOver inv.abortOver
    · simp [receiving]
    · simp
    · simp only [System.pumped, receiving] at ring
      exact ring
    · simp
  · rename_i receiving
    cases received
    refine inv.carry ?_ rfl rfl le_rfl ?_ ?_ ?_ inv.freshnessOver inv.abortOver
    · simp [receiving]
    · simp
    · simp only [System.pumped, receiving] at ring
      exact ring
    · simp
  · rename_i receiving
    split_ifs at received with isAborted
    cases received
    refine inv.carry ?_ rfl rfl le_rfl ?_ ?_ ?_ inv.freshnessOver inv.abortOver
    · simp [receiving]
    · simp
    · simp only [System.pumped, receiving] at ring
      exact ring
    · intro done
      exact inv.abortOver isAborted
  · simp at received

attribute [local simp] PrefixCache.report

theorem pumpStep (stepped : system.pumpStep = some after) : Pumping first after := by
  have ring := inv.ring
  have working := inv.working
  unfold System.pumpStep at stepped
  split at stepped
  case h_1 => simp at stepped
  case h_2 seq event stage =>
    simp only [System.pumped, stage] at ring
    split_ifs at stepped with isError
    · cases stepped
      refine inv.carry ?_ rfl rfl le_rfl ?_ ?_ ?_ inv.freshnessOver inv.abortOver
      · simp [stage, isError]
      · simp
      · simpa [Pump.inRing, isError] using ring
      · simp
    · cases stepped
      refine inv.carry ?_ rfl rfl le_rfl ?_ ring ?_ inv.freshnessOver inv.abortOver
      · simp [stage, isError]
      · simp [isError]
      · simp
  case h_3 seq event stage =>
    rw [stage] at working
    simp only [System.pumped, stage] at ring
    cases stepped
    refine inv.carry ?_ rfl rfl le_rfl working ring ?_ inv.freshnessOver inv.abortOver
    · simp [stage]
    · simp
  case h_4 seq event stage =>
    rw [stage] at working
    simp only [System.pumped, stage, Pump.inRing, append_nil] at ring
    cases stepped
    refine inv.carry ?_ rfl rfl le_rfl working ?_ ?_ inv.freshnessOver inv.abortOver
    · simp [stage]
    · change push RING_CAPACITY system.cache.ring (seq, event) =
        newest RING_CAPACITY (system.sentEvents ++ [(seq, event)])
      rw [ring, newest_push ring_positive]
    · simp
  case h_5 seq event stage =>
    rw [stage] at working
    simp only [System.pumped, stage, Pump.inRing] at ring
    have kept : event.isError = false := by simpa using working _ mem_cons_self
    cases stepped
    refine inv.carry ?_ rfl rfl le_rfl ?_ ?_ ?_ inv.freshnessOver inv.abortOver
    · simp [stage, kept]
    · simp
    · simpa [Pump.inRing, kept] using ring
    · simp
  case h_6 stage =>
    simp only [System.pumped, stage] at ring
    cases stepped
    refine inv.carry ?_ rfl rfl le_rfl ?_ ring ?_ ?_ ?_
    · simp [stage]
    all_goals simp
  case h_7 stage =>
    simp only [System.pumped, stage] at ring
    cases stepped
    have marked := inv.pumpOver (by rw [stage]; rfl)
    refine inv.carry ?_ rfl rfl (Nat.le_succ _) ?_ ?_ ?_ ?_ ?_
    · simp [stage]
    · simp
    · simpa [Pump.inRing] using ring
    all_goals exact fun _ => marked
  case h_8 stage =>
    simp only [System.pumped, stage] at ring
    cases stepped
    have marked := inv.pumpOver (by rw [stage]; rfl)
    refine inv.carry ?_ rfl rfl le_rfl ?_ ring ?_ ?_ ?_
    · simp [stage]
    · simp
    all_goals exact fun _ => marked
  case h_9 => simp at stepped

theorem freshnessStep (stepped : system.freshnessStep = some after) : Pumping first after := by
  unfold System.freshnessStep at stepped
  split at stepped
  case h_1 stage | h_2 _ stage =>
    split_ifs at stepped
    all_goals
      cases stepped
      exact { inv with freshnessOver := by simp }
  case h_3 snapshot revision stage =>
    cases stepped
    exact { inv with freshnessOver := by simp }
  case h_4 changed revision stage =>
    cases stepped
    exact { inv with freshnessOver := by cases changed <;> simp }
  case h_5 revision stage =>
    cases stepped
    exact { inv with
      pumpOver := fun _ => rfl
      freshnessOver := fun _ => rfl
      abortOver := fun _ => rfl }
  case h_6 revision stage =>
    have ring := inv.ring
    have marked := inv.freshnessOver (by rw [stage]; rfl)
    cases stepped
    refine inv.carry ?_ rfl rfl (Nat.le_succ _) inv.working ?_ ?_ ?_ ?_
    · simp
    · simpa using ring
    all_goals exact fun _ => marked
  case h_7 stage =>
    have marked := inv.freshnessOver (by rw [stage]; rfl)
    cases stepped
    exact { inv with freshnessOver := fun _ => marked }
  case h_8 stage =>
    have marked := inv.freshnessOver (by rw [stage]; rfl)
    cases stepped
    exact { inv with freshnessOver := fun _ => marked, abortOver := fun _ => marked }
  case h_9 => simp at stepped

theorem step {action : Action} (stepped : system.step action = some after) :
    Pumping first after := by
  cases System.step_moved stepped with
  | write key value => exact inv.write
  | receive received => exact inv.receive received
  | pump pumped => exact inv.pumpStep pumped
  | freshness checked => exact inv.freshnessStep checked
  | writeElsewhere | elapse | watch | watcher | leave | wait | read => exact { inv with }

end Pumping

namespace System

variable (system : System)

/-- What a receiver at `next` has not seen of the pump's events. -/
def unread (next : Nat) : List Numbered :=
  (system.cache.sent.drop next).filter genuine ++ system.pump.inRing

/-- An error waits for a receiver at `next`, or a task is about to send one. -/
def ErrorAhead (next : Nat) : Prop :=
  (∃ entry ∈ system.cache.sent.drop next, entry.2.isError = true) ∨
    system.pump = .terminated ∨ ∃ revision, system.freshness = .terminated revision

end System

/-- What a step adds to the pump's events, for those who follow them. -/
structure Grows (system after : System) (new : List Numbered) : Prop where
  pumped : after.pumped = system.pumped ++ new
  unread : ∀ next ≤ system.cache.sent.length, after.unread next = system.unread next ++ new
  later : ∀ entry ∈ new, 0 < entry.1 ∧ ∀ old ∈ system.pumped, old.1 < entry.1
  longer : system.cache.sent.length ≤ after.cache.sent.length
  ahead : ∀ next ≤ system.cache.sent.length,
    (system.cache.terminated = true → system.ErrorAhead next) →
      after.cache.terminated = true → after.ErrorAhead next

namespace Grows

variable {first : Nat} {system after : System} {entry : Numbered}

section

variable (sent : after.cache.sent = system.cache.sent)

include sent

section

variable (inRing : after.pump.inRing = system.pump.inRing)

include inRing

theorem still
    (ahead : ∀ next, (system.cache.terminated = true → system.ErrorAhead next) →
      after.cache.terminated = true → after.ErrorAhead next) : Grows system after [] where
  pumped := by simp [System.pumped, System.sentEvents, sent, inRing]
  unread := by simp [System.unread, sent, inRing]
  later := by simp
  longer := Nat.le_of_eq (by rw [sent])
  ahead next _ := ahead next

/-- A step that sends nothing and marks nothing. -/
theorem silent
    (terminated : after.cache.terminated = system.cache.terminated)
    (pump : system.pump = .terminated → after.pump = .terminated)
    (freshness : ∀ revision, system.freshness = .terminated revision →
      after.freshness = .terminated revision) : Grows system after [] := by
  refine still sent inRing fun next ahead marked => ?_
  rw [terminated] at marked
  unfold System.ErrorAhead
  rw [sent]
  exact (ahead marked).imp id (Or.imp pump (Exists.imp freshness))

theorem marking
    (closing : after.pump = .terminated ∨ ∃ revision, after.freshness = .terminated revision) :
    Grows system after [] :=
  still sent inRing fun _ _ _ => .inr closing

end

end

/-- A step that sends one more entry: the one in the ring, or an error. -/
theorem sending (sent : after.cache.sent = system.cache.sent ++ [entry])
    (inRing : system.pump.inRing = [entry].filter genuine ++ after.pump.inRing)
    (terminated : after.cache.terminated = system.cache.terminated)
    (pump : system.pump = .terminated → entry.2.isError = true ∨ after.pump = .terminated)
    (freshness : ∀ revision, system.freshness = .terminated revision →
      entry.2.isError = true ∨ after.freshness = .terminated revision) : Grows system after [] where
  pumped := by simp [System.pumped, System.sentEvents, sent, inRing]
  unread := by
    intro next position
    simp [System.unread, sent, inRing, drop_append_of_le_length position]
  later := by simp
  longer := by simp [sent]
  ahead := by
    intro next position before marked
    rw [terminated] at marked
    have waits (isError : entry.2.isError = true) : after.ErrorAhead next := by
      refine .inl ⟨entry, ?_, isError⟩
      rw [sent, drop_append_of_le_length position]
      exact mem_append_right _ mem_cons_self
    rcases before marked with ⟨waiting, member, isError⟩ | closing | ⟨revision, closing⟩
    · refine .inl ⟨waiting, ?_, isError⟩
      rw [sent, drop_append_of_le_length position]
      exact mem_append_left _ member
    · exact (pump closing).elim waits fun still => .inr (.inl still)
    · exact (freshness revision closing).elim waits fun still => .inr (.inr ⟨revision, still⟩)

/-- The pump puts its event into the ring. -/
theorem pushing (inv : Pumping first system)
    (sent : after.cache.sent = system.cache.sent) (working : system.pump.event = [entry])
    (before : system.pump.inRing = []) (inRing : after.pump.inRing = [entry])
    (terminated : after.cache.terminated = system.cache.terminated)
    (pump : system.pump ≠ .terminated) (freshness : after.freshness = system.freshness) :
    Grows system after [entry] where
  pumped := by simp [System.pumped, System.sentEvents, sent, before, inRing]
  unread := by simp [System.unread, sent, before, inRing]
  later := by
    intro later member
    obtain rfl := mem_singleton.mp member
    have stamps : system.stamps = system.sentEvents.map (fun old => (old.1, old.2.revision)) ++
        [(later.1, later.2.revision)] := by
      rw [System.stamps, System.taken, working, map_append]
      rfl
    refine ⟨(inv.allotted (later.1, later.2.revision) (by simp [stamps])).1, ?_⟩
    intro old earlier
    have sentBefore : old ∈ system.sentEvents := by
      simpa [System.pumped, before] using earlier
    have numbered := inv.numbered
    rw [stamps, pairwise_append] at numbered
    exact numbered.2.2 (old.1, old.2.revision) (mem_map_of_mem sentBefore) _ mem_cons_self
  longer := Nat.le_of_eq (by rw [sent])
  ahead := by
    intro next position before marked
    rw [terminated] at marked
    unfold System.ErrorAhead
    rw [sent, freshness]
    exact (before marked).imp id (Or.imp (fun closing => absurd closing pump) id)

attribute [local simp] Pump.inRing System.numbered

theorem receive {upstream : Upstream} (received : system.receive upstream = some after) :
    Grows system after [] := by
  unfold System.receive at received
  split at received
  · rename_i receiving
    split at received
    · cases received
      refine silent rfl ?_ rfl ?_ ?_
      all_goals simp [receiving]
    · simp at received
  · rename_i receiving
    cases received
    refine silent rfl ?_ rfl ?_ ?_
    all_goals simp [receiving]
  · rename_i receiving
    cases received
    refine silent rfl ?_ rfl ?_ ?_
    all_goals simp [receiving]
  · rename_i receiving
    split_ifs at received
    cases received
    refine silent rfl ?_ rfl ?_ ?_
    all_goals simp [receiving]
  · simp at received

theorem pumpStep (inv : Pumping first system) (stepped : system.pumpStep = some after) :
    ∃ new, Grows system after new := by
  have working := inv.working
  unfold System.pumpStep at stepped
  split at stepped
  case h_1 | h_9 => simp at stepped
  case h_2 seq event stage =>
    split_ifs at stepped with isError
    · cases stepped
      refine ⟨[], sending rfl ?_ rfl ?_ ?_⟩
      all_goals simp [stage, isError]
    · cases stepped
      refine ⟨[], silent rfl ?_ rfl ?_ ?_⟩
      all_goals simp [stage]
  case h_3 _ _ stage | h_8 stage =>
    cases stepped
    refine ⟨[], silent rfl ?_ rfl ?_ ?_⟩
    all_goals simp [stage]
  case h_4 seq event stage =>
    cases stepped
    refine ⟨[(seq, event)], pushing inv rfl ?_ ?_ rfl rfl ?_ rfl⟩
    all_goals simp [stage]
  case h_5 seq event stage =>
    rw [stage] at working
    have kept : event.isError = false := by simpa using working _ mem_cons_self
    cases stepped
    refine ⟨[], sending rfl ?_ rfl ?_ fun _ => .inr⟩
    all_goals simp [stage, kept]
  case h_6 stage =>
    cases stepped
    refine ⟨[], marking rfl ?_ (.inl rfl)⟩
    simp [stage]
  case h_7 stage =>
    cases stepped
    refine ⟨[], sending rfl ?_ rfl ?_ ?_⟩
    all_goals simp [stage]

theorem freshnessStep (stepped : system.freshnessStep = some after) : Grows system after [] := by
  unfold System.freshnessStep at stepped
  split at stepped
  case h_1 stage | h_2 _ stage =>
    split_ifs at stepped
    all_goals
      cases stepped
      refine silent rfl rfl rfl id ?_
      simp [stage]
  case h_5 revision stage =>
    cases stepped
    exact marking rfl rfl (.inr ⟨revision, rfl⟩)
  case h_6 revision stage =>
    cases stepped
    refine sending rfl ?_ rfl .inr ?_
    all_goals simp
  case h_9 => simp at stepped
  all_goals
    rename_i stage
    cases stepped
    refine silent rfl rfl rfl id ?_
    simp [stage]

theorem step {action : Action} (inv : Pumping first system)
    (stepped : system.step action = some after) : ∃ new, Grows system after new := by
  cases System.step_moved stepped with
  | receive received => exact ⟨[], receive received⟩
  | pump pumped => exact pumpStep inv pumped
  | freshness checked => exact ⟨[], freshnessStep checked⟩
  | write | writeElsewhere | elapse | watch | watcher | leave | wait | read =>
    exact ⟨[], silent rfl rfl rfl id fun _ => id⟩

end Grows

end Rustkube.WatchCache
