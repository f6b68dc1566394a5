import Rustkube.WatchPump

namespace Rustkube.WatchCache

open List WatchCache.System

def Watcher.stream? : Watcher → Option Stream
  | .streaming stream => some stream
  | .ended stream _ => some stream
  | _ => none

/-- The last number a stream skips: everything up to it came from the ring. -/
def Stream.cut (stream : Stream) : Nat := (stream.backlog.getLast?.map (·.1)).getD stream.lastSeq

def Stream.accepts (stream : Stream) (entry : Numbered) : Bool :=
  stream.cut < entry.1 && stream.start < entry.2.revision

namespace System

variable (system : System)

/-- The events of the pump above a revision. -/
def wanted (start : Nat) : List WatchEvent :=
  (system.pumped.filter fun entry => decide (start < entry.2.revision)).map (·.2)

/-- What a stream would hand over from here on if nothing else happened. -/
def due (stream : Stream) : List WatchEvent :=
  (stream.backlog ++ (system.unread stream.next).filter stream.accepts).map (·.2)

end System

/-- A stream has what it handed over, and what is still due, of the pump's events. -/
structure Balanced (system : System) (stream : Stream) : Prop where
  position : stream.next ≤ system.cache.sent.length
  handed : stream.handed ++ system.due stream = system.wanted stream.start
  known : stream.cut = 0 ∨ ∃ entry ∈ system.pumped, entry.1 = stream.cut

def Watched (system : System) : Watcher → Prop
  | .subscribed _ next => next ≤ system.cache.sent.length
  | .replayed start next gap backlog =>
    next ≤ system.cache.sent.length ∧
      (gap = false → Balanced system ⟨start, next, backlog, 0, []⟩)
  | .streaming stream =>
    Balanced system stream ∧ (system.cache.terminated = true → system.ErrorAhead stream.next)
  | .ended stream ending =>
    stream.handed <+: system.wanted stream.start ∧ ending ≠ .closed
  | _ => True

section

variable {first : Nat} {system after : System}

variable {stream : Stream} {new : List Numbered}

theorem Balanced.grow (balanced : Balanced system stream)
    (grows : Grows system after new) : Balanced after stream := by
  have fresh : new.filter stream.accepts =
      new.filter fun entry => decide (stream.start < entry.2.revision) := by
    apply filter_congr
    intro entry member
    have ⟨positive, later⟩ := grows.later entry member
    have above : stream.cut < entry.1 := by
      rcases balanced.known with zero | ⟨old, pumped, isCut⟩
      · omega
      · have before := later old pumped
        omega
    simp [Stream.accepts, above]
  refine ⟨Nat.le_trans balanced.position grows.longer, ?_, ?_⟩
  · have handed := balanced.handed
    simp only [System.due, System.wanted, grows.unread _ balanced.position, grows.pumped,
      filter_append, map_append, fresh] at handed ⊢
    rw [← handed]
    simp
  · refine balanced.known.imp id ?_
    rintro ⟨entry, pumped, isCut⟩
    exact ⟨entry, by rw [grows.pumped]; exact mem_append_left _ pumped, isCut⟩

theorem Grows.wanted (grows : Grows system after new) (start : Nat) :
    system.wanted start <+: after.wanted start := by
  simp only [System.wanted, grows.pumped, filter_append, map_append]
  exact prefix_append _ _

variable {watcher : Watcher}

theorem Watched.grow (watched : Watched system watcher)
    (grows : Grows system after new) : Watched after watcher := by
  cases watcher with
  | subscribed start next => exact Nat.le_trans watched grows.longer
  | replayed start next gap backlog =>
    exact ⟨Nat.le_trans watched.1 grows.longer, fun closed => (watched.2 closed).grow grows⟩
  | idle | opened | store => trivial
  | streaming stream =>
    exact ⟨watched.1.grow grows, grows.ahead stream.next watched.1.position watched.2⟩
  | ended stream ending => exact ⟨watched.1.trans (grows.wanted stream.start), watched.2⟩

section

variable (inv : Pumping first system)

include inv

theorem Pumping.rising :
    system.taken.Pairwise fun earlier later => earlier.2.revision < later.2.revision := by
  have sorted : ((system.store.log.take system.delivered).drop first).Pairwise
      fun earlier later => earlier.revision < later.revision :=
    (system.store.increasing.sublist (take_sublist _ _)).sublist (drop_sublist _ _)
  have mapped := pairwise_map.mpr sorted
  rw [← inv.revisions, System.stamps, map_map] at mapped
  exact pairwise_map.mp mapped

theorem Pumping.pumped_rising :
    system.pumped.Pairwise fun earlier later => earlier.2.revision < later.2.revision :=
  inv.rising.sublist system.pumped_sublist

theorem Pumping.pumped_numbered : system.pumped.Pairwise fun earlier later => earlier.1 < later.1 :=
  (pairwise_map.mp inv.numbered).sublist system.pumped_sublist

theorem Pumping.pumped_positive {entry : Numbered} (member : entry ∈ system.pumped) : 0 < entry.1 :=
  (inv.allotted (entry.1, entry.2.revision)
    (mem_map_of_mem (system.pumped_sublist.subset member))).1

theorem Pumping.replay {start : Nat} (noGap : system.ringGap start = false) :
    system.cache.ring.filter (fun entry => decide (start < entry.2.revision)) =
      system.pumped.filter fun entry => decide (start < entry.2.revision) := by
  rw [inv.ring]
  apply Window.filter_newest ring_positive
  · refine inv.pumped_rising.imp ?_
    intro earlier later before wanted
    simp only [decide_eq_true_eq] at wanted ⊢
    omega
  · intro front rest isFront wanted
    by_contra evicted
    have first : system.cache.ring.head? = some front := by rw [inv.ring, isFront]; rfl
    have low : front.1 ≤ 1 := by
      simpa [System.ringGap, first, of_decide_eq_true wanted] using noGap
    -- an evicted event has a smaller number than the front, and every number is positive
    have whole := take_append_drop (system.pumped.length - RING_CAPACITY) system.pumped
    rw [Window.newest] at isFront
    rw [isFront] at whole
    cases dropped : system.pumped.take (system.pumped.length - RING_CAPACITY) with
    | nil =>
      have none := congrArg length dropped
      rw [length_take, length_nil] at none
      omega
    | cons oldest others =>
      rw [dropped] at whole
      have numbered := inv.pumped_numbered
      rw [← whole, pairwise_append] at numbered
      have before := numbered.2.2 oldest mem_cons_self front mem_cons_self
      have member : oldest ∈ system.pumped := by simp [← whole]
      have positive := inv.pumped_positive member
      omega

end

theorem Stream.le_cut (stream : Stream)
    (numbered : stream.backlog.Pairwise fun earlier later => earlier.1 < later.1)
    {entry : Numbered} (member : entry ∈ stream.backlog) : entry.1 ≤ stream.cut := by
  rcases eq_nil_or_concat stream.backlog with empty | ⟨init, last, concat⟩
  · simp [empty] at member
  · rw [concat_eq_append] at concat
    rw [concat] at numbered member
    have isCut : stream.cut = last.1 := by simp [cut, concat]
    rcases mem_append.mp member with earlier | isLast
    · have before := (pairwise_append.mp numbered).2.2 entry earlier last mem_cons_self
      omega
    · rw [mem_singleton.mp isLast]
      exact Nat.le_of_eq isCut.symm

theorem Pumping.balanced (inv : Pumping first system) {start next : Nat}
    (position : next ≤ system.cache.sent.length) (noGap : system.ringGap start = false) :
    Balanced system ⟨start, next,
      system.cache.ring.filter fun entry => decide (start < entry.2.revision), 0, []⟩ := by
  have replay := inv.replay noGap
  have numbered : (system.pumped.filter fun entry => decide (start < entry.2.revision)).Pairwise
      fun earlier later => earlier.1 < later.1 := inv.pumped_numbered.filter _
  have unread : system.unread next ⊆ system.pumped :=
    append_subset.mpr ⟨fun entry member => mem_append_left _
      (((drop_sublist next _).filter genuine).subset member), subset_append_right _ _⟩
  refine ⟨position, ?_, ?_⟩
  · rw [replay]
    have none : (system.unread next).filter (Stream.accepts ⟨start, next,
        system.pumped.filter fun entry => decide (start < entry.2.revision), 0, []⟩) = [] := by
      rw [filter_eq_nil_iff]
      intro entry member accepted
      simp only [Stream.accepts, Bool.and_eq_true, decide_eq_true_eq] at accepted
      have inside : entry ∈ system.pumped.filter fun entry => decide (start < entry.2.revision) :=
        mem_filter.mpr ⟨unread member, by simpa using accepted.2⟩
      have covered := Stream.le_cut ⟨start, next, _, 0, []⟩ numbered inside
      omega
    simp [System.due, System.wanted, none]
  · rw [replay]
    cases last : (system.pumped.filter fun entry => decide (start < entry.2.revision)).getLast? with
    | none => exact .inl (by simp [Stream.cut, last])
    | some entry =>
      have member := mem_of_getLast? last
      exact .inr ⟨entry, (mem_filter.mp member).1, by simp [Stream.cut, last]⟩

variable {event : WatchEvent}

section

variable (balanced : Balanced system stream) {seq : Nat}

include balanced

theorem Balanced.replayed {rest : List Numbered} (backlog : stream.backlog = (seq, event) :: rest) :
    Balanced system { stream with
      backlog := rest, lastSeq := seq, handed := stream.handed ++ [event] } := by
  have cut : Stream.cut { stream with
      backlog := rest, lastSeq := seq, handed := stream.handed ++ [event] } = stream.cut := by
    cases last : rest.getLast? <;> simp [Stream.cut, backlog, getLast?_cons, last]
  have accepts : Stream.accepts { stream with
      backlog := rest, lastSeq := seq, handed := stream.handed ++ [event] } = stream.accepts := by
    funext entry
    simp only [Stream.accepts, cut]
  refine ⟨balanced.position, ?_, ?_⟩
  · have handed := balanced.handed
    simp only [System.due, backlog] at handed
    simp only [System.due, accepts]
    simpa using handed
  · rw [cut]
    exact balanced.known

theorem Balanced.received (empty : stream.backlog = [])
    (found : system.cache.sent[stream.next]? = some (seq, event))
    (notError : event.isError = false) :
    Balanced system { stream with
      next := stream.next + 1
      handed := stream.handed ++
        if stream.lastSeq < seq && stream.start < event.revision then [event] else [] } := by
  have ⟨inside, isNext⟩ := List.getElem?_eq_some_iff.mp found
  have unread : system.unread stream.next = (seq, event) :: system.unread (stream.next + 1) := by
    simp [System.unread, drop_eq_getElem_cons inside, isNext, notError]
  have isAccepted : stream.accepts (seq, event) =
      (stream.lastSeq < seq && stream.start < event.revision) := by
    simp [Stream.accepts, Stream.cut, empty]
  refine ⟨inside, ?_, balanced.known⟩
  have handed := balanced.handed
  simp only [System.due, unread, empty, filter_cons, isAccepted] at handed
  change (stream.handed ++ _) ++ (stream.backlog ++
    (system.unread (stream.next + 1)).filter stream.accepts).map (·.2) = system.wanted stream.start
  rw [empty]
  split_ifs at handed ⊢ with accepted
  · simpa using handed
  · simpa using handed

theorem Balanced.started : stream.handed <+: system.wanted stream.start := by
  rw [← balanced.handed]
  exact prefix_append _ _

end

theorem not_dropped (inv : Pumping first system) {next : Nat}
    (ahead : system.cache.terminated = true → system.ErrorAhead next)
    (read : system.cache.sent.length ≤ next) : ¬ system.dropped = true := by
  intro dropped
  simp only [System.dropped, Bool.and_eq_true] at dropped
  obtain ⟨⟨-, pump⟩, freshness⟩ := dropped
  split at pump
  · rename_i done
    rcases ahead (inv.pumpOver (by rw [done]; rfl)) with ⟨entry, member, -⟩ | closing | ⟨_, closing⟩
    · rw [drop_eq_nil_of_le read] at member
      simp at member
    · simp [done] at closing
    · simp [closing] at freshness
  · simp at pump

theorem ahead_next {next seq : Nat}
    (ahead : system.cache.terminated = true → system.ErrorAhead next)
    (found : system.cache.sent[next]? = some (seq, event)) (notError : event.isError = false) :
    system.cache.terminated = true → system.ErrorAhead (next + 1) := by
  intro marked
  have ⟨inside, isNext⟩ := List.getElem?_eq_some_iff.mp found
  refine (ahead marked).imp ?_ id
  rintro ⟨entry, member, isError⟩
  rw [drop_eq_getElem_cons inside, isNext] at member
  rcases mem_cons.mp member with rfl | later
  · simp [notError] at isError
  · exact ⟨entry, later, isError⟩

variable (inv : Pumping first system)

include inv

theorem feed_watched (watched : Watched system (.streaming stream))
    (fed : system.feed stream = some watcher) : Watched system watcher := by
  have ⟨balanced, ahead⟩ := watched
  have started := balanced.started
  unfold System.feed at fed
  split at fed
  · rename_i seq event rest backlog
    cases fed
    exact ⟨balanced.replayed backlog, ahead⟩
  · rename_i empty
    by_cases lagged : BROADCAST_CAPACITY < system.cache.sent.length - stream.next
    · rw [if_pos lagged] at fed
      cases fed
      exact ⟨started, by simp⟩
    · rw [if_neg lagged] at fed
      cases found : system.cache.sent[stream.next]? with
      | none =>
        simp only [found] at fed
        split_ifs at fed with dropped
        cases fed
        exact absurd dropped (not_dropped inv ahead (getElem?_eq_none_iff.mp found))
      | some entry =>
        have ⟨seq, event⟩ := entry
        simp only [found] at fed
        by_cases isError : event.isError = true
        · rw [if_pos isError] at fed
          cases fed
          exact ⟨started, by simp⟩
        · have received := balanced.received empty found (by simpa using isError)
          have still := ahead_next ahead found (by simpa using isError)
          split_ifs at fed received with accepted
          · cases fed
            exact ⟨received, still⟩
          · cases fed
            rw [append_nil] at received
            exact ⟨received, still⟩

theorem watcher_watched (watched : Watched system system.watcher)
    (stepped : system.watcherStep = some watcher) : Watched system watcher := by
  unfold System.watcherStep at stepped
  split at stepped
  case h_1 => simp at stepped
  case h_2 start opened =>
    cases stepped
    exact le_rfl
  case h_3 start next subscribed =>
    rw [subscribed] at watched
    cases stepped
    exact ⟨watched, inv.balanced watched⟩
  case h_4 start next gap backlog replayed =>
    rw [replayed] at watched
    split_ifs at stepped with refused
    · cases stepped
      trivial
    · cases stepped
      simp only [Bool.or_eq_true, not_or, Bool.not_eq_true] at refused
      exact ⟨watched.2 refused.2, by simp [refused.1.1]⟩
  case h_5 => simp at stepped
  case h_6 stream streaming =>
    rw [streaming] at watched
    exact feed_watched inv watched stepped
  case h_7 => simp at stepped

theorem watched_step {action : Action} (watched : Watched system system.watcher)
    (stepped : system.step action = some after) : Watched after after.watcher := by
  have ⟨new, grows⟩ := Grows.step inv stepped
  cases step_moved stepped with
  | watch startRev start => trivial
  | watcher advanced => exact (watcher_watched inv watched advanced).grow grows
  | leave streaming =>
    rw [streaming] at watched
    have ended : Watched system (.ended _ .left) := ⟨watched.1.started, by simp⟩
    exact ended.grow grows
  | receive received =>
    rw [(receive_others received).1]
    exact watched.grow grows
  | pump pumped =>
    rw [(pumpStep_others pumped).1]
    exact watched.grow grows
  | freshness checked =>
    rw [(freshnessStep_others checked).1]
    exact watched.grow grows
  | write | writeElsewhere | elapse | wait | read => exact watched.grow grows

end

/-- In every order of the steps of the pump, the freshness task and `watch`, a client served from
the cache was handed the pump's events above its start revision, in order and each once, from the
first one on. A stream that is open and has read all there is has handed over all of them; one that
is over ended with an error, unless the client left. -/
theorem cached_watch_without_gaps {store : EventStore} {now : Nat} {system : System}
    {stream : Stream} (reached : System.Reachable store now system)
    (serving : system.watcher.stream? = some stream) :
    stream.handed <+: system.wanted stream.start ∧
      stream.handed.Pairwise (fun earlier later => earlier.revision < later.revision) ∧
      (system.watcher = .streaming stream → stream.backlog = [] → system.unread stream.next = [] →
        stream.handed = system.wanted stream.start) ∧
      ∀ ending, system.watcher = .ended stream ending →
        ending = .left ∨ ∃ event, ending = .error event := by
  have ⟨inv, watched⟩ : Pumping store.log.length system ∧ Watched system system.watcher := by
    apply reached.invariant
    · exact ⟨.opened_start store now, trivial⟩
    · intro before action after inv _ stepped
      exact ⟨inv.1.step stepped, watched_step inv.1 inv.2 stepped⟩
  have rising : (system.wanted stream.start).Pairwise
      fun earlier later => earlier.revision < later.revision :=
    pairwise_map.mpr (inv.pumped_rising.filter _)
  have given : stream.handed <+: system.wanted stream.start := by
    cases isWatcher : system.watcher with
    | streaming current =>
      rw [isWatcher] at watched serving
      cases serving
      exact watched.1.started
    | ended current ending =>
      rw [isWatcher] at watched serving
      cases serving
      exact watched.1
    | _ => simp [isWatcher, Watcher.stream?] at serving
  refine ⟨given, rising.sublist given.sublist, ?_, ?_⟩
  · intro streaming empty read
    rw [streaming] at watched
    have handed := watched.1.handed
    simpa [System.due, empty, read] using handed
  · intro ending ended
    rw [ended] at watched
    cases ending with
    | error event => exact .inr ⟨event, rfl⟩
    | left => exact .inl rfl
    | closed => exact absurd rfl watched.2

/-- A watch that is opened between the ring and the channel: the event reaches it by both ways and
is handed over once. -/
theorem cached_watch_without_gaps_overlap : ∃ (system : System) (stream : Stream),
    system.watcher = .streaming stream ∧ stream.next = 1 ∧
      stream.handed = [.added "/registry/pods/default/a" [1] 6] ∧
      stream.handed = system.wanted stream.start := by
  have reached : Reachable (.untouched 5) 0 _ := Transition.Reaches.start.run
    [.write "/registry/pods/default/a" (some [1]), .receive .next, .pump, .pump, .pump,
      .watch 5, .watcher, .watcher, .watcher, .watcher, .pump, .watcher] rfl
  exact ⟨_, _, rfl, rfl, rfl, (cached_watch_without_gaps reached rfl).2.2.1 rfl rfl rfl⟩

end Rustkube.WatchCache
