import Rustkube.Lib.Transition

/-- A program that calls on what surrounds it: it is done, or it makes a call and goes on with the
answer. -/
inductive Process (Op : Type) (Answer : Op → Type) (α : Type) : Type where
  | done (result : α)
  | call (op : Op) (next : Answer op → Process Op Answer α)

/-- The rules for a party that keeps notes: the calls it may make, the answers it can get, and what
it notes down. -/
structure Protocol (Op : Type) (Answer : Op → Type) (Notes : Type) where
  allows : Notes → Op → Prop
  expects : Notes → (op : Op) → Answer op → Prop
  note : Notes → (op : Op) → Answer op → Notes

namespace Process

variable {Op : Type} {Answer : Op → Type} {α : Type}

variable {Notes : Type} {protocol : Protocol Op Answer Notes} {notes : Notes}

/-- Whatever the answers, the process keeps to the rules, and ends with notes and a result that
`post` holds of. -/
def Follows (protocol : Protocol Op Answer Notes) (post : Notes → α → Prop) :
    Process Op Answer α → Notes → Prop
  | .done result, notes => post notes result
  | .call op next, notes => protocol.allows notes op ∧ ∀ answer, protocol.expects notes op answer →
      (next answer).Follows protocol post (protocol.note notes op answer)

variable {post weaker : Notes → α → Prop} {process : Process Op Answer α}

theorem Follows.imp (follows : process.Follows protocol post notes)
    (implies : ∀ notes result, post notes result → weaker notes result) :
    process.Follows protocol weaker notes := by
  induction process generalizing notes with
  | done result => exact implies notes result follows
  | call op next ih => exact ⟨follows.1, fun answer can => ih answer (follows.2 answer can)⟩

end Process

/-- Requests over a shared store: what a call does to it, the process of a request in its setting,
which may come to another request, the notes it starts with and the rules it is held to. -/
structure Machine (Store Request Setting Outside Notes Op : Type) (Answer : Op → Type) where
  perform : Setting → Store → (op : Op) → Outside → Answer op × Store
  attempt : Setting → Request → Process Op Answer (Option Request)
  opening : Request → Notes
  protocol : Protocol Op Answer Notes

/-- A request under way. -/
structure Thread (Request Setting Notes Op : Type) (Answer : Op → Type) where
  request : Request
  setting : Setting
  process : Process Op Answer (Option Request)
  notes : Notes

structure Pool (Store Request Setting Notes Op : Type) (Answer : Op → Type) where
  store : Store
  threads : List (Thread Request Setting Notes Op Answer)

/-- A request arrives; one that is under way makes its next call; or one goes on as what it has come
to. -/
inductive PoolAction (Request Setting Outside : Type) where
  | arrive (request : Request) (setting : Setting)
  | call (index : Nat) (outside : Outside)
  | turn (index : Nat) (setting : Setting)

variable {Store Request Setting Outside Notes Op : Type} {Answer : Op → Type}

namespace Pool

variable (pool : Pool Store Request Setting Notes Op Answer)

def notes : List Notes := pool.threads.map Thread.notes

end Pool

namespace Machine

variable (machine : Machine Store Request Setting Outside Notes Op Answer)

def begin (setting : Setting) (request : Request) : Thread Request Setting Notes Op Answer :=
  ⟨request, setting, machine.attempt setting request, machine.opening request⟩

def step (pool : Pool Store Request Setting Notes Op Answer) :
    PoolAction Request Setting Outside → Option (Pool Store Request Setting Notes Op Answer)
  | .arrive request setting =>
    some { pool with threads := pool.threads ++ [machine.begin setting request] }
  | .call index outside =>
    match pool.threads[index]? with
    | some ⟨request, setting, .call op next, notes⟩ =>
      let performed := machine.perform setting pool.store op outside
      some ⟨performed.2, pool.threads.set index
        ⟨request, setting, next performed.1, machine.protocol.note notes op performed.1⟩⟩
    | _ => none
  | .turn index setting =>
    match pool.threads[index]? with
    | some ⟨_, _, .done (some request), _⟩ =>
      some { pool with threads := pool.threads.set index (machine.begin setting request) }
    | _ => none

/-- The requests that are held to the rules, and the notes that they may end with. -/
structure Discipline where
  admitted : Request → Prop
  settled : Notes → Prop
  follows : ∀ setting request, admitted request →
    (machine.attempt setting request).Follows machine.protocol
      (fun notes result => settled notes ∧ ∀ next ∈ result, admitted next) (machine.opening request)

/-- The call that a thread of the pool makes next, with the notes of the thread. -/
def Calls (pool : Pool Store Request Setting Notes Op Answer) (index : Nat) (setting : Setting)
    (notes : Notes) (op : Op) : Prop :=
  ∃ request next, pool.threads[index]? = some ⟨request, setting, .call op next, notes⟩

/-- The environment gives the answers that the rules expect, and admitted requests only. -/
def Meets (admitted : Request → Prop) (pool : Pool Store Request Setting Notes Op Answer) :
    PoolAction Request Setting Outside → Prop
  | .arrive request _ => admitted request
  | .call index outside => ∀ setting notes op, Calls pool index setting notes op →
      machine.protocol.expects notes op (machine.perform setting pool.store op outside).1
  | .turn _ _ => True

variable {machine} {before after : Pool Store Request Setting Notes Op Answer}
  {thread : Thread Request Setting Notes Op Answer} {discipline : machine.Discipline} {index : Nat}

/-- Every request under way keeps to the rules. -/
def Discipline.Kept (discipline : machine.Discipline)
    (pool : Pool Store Request Setting Notes Op Answer) : Prop :=
  ∀ thread ∈ pool.threads, thread.process.Follows machine.protocol
    (fun notes result => discipline.settled notes ∧ ∀ next ∈ result, discipline.admitted next)
    thread.notes

/-- What a step does to the store and to the notes, where the requests keep to the rules. -/
inductive Moved (discipline : machine.Discipline)
    (before after : Pool Store Request Setting Notes Op Answer) :
    PoolAction Request Setting Outside → Prop
  | arrived {request : Request} {setting : Setting} (store : after.store = before.store)
      (notes : after.notes = before.notes ++ [machine.opening request]) :
      Moved discipline before after (.arrive request setting)
  | called {index : Nat} {outside : Outside} {setting : Setting} {notes : Notes} {op : Op}
      (calls : Calls before index setting notes op) (held : before.notes[index]? = some notes)
      (allowed : machine.protocol.allows notes op)
      (can : machine.protocol.expects notes op (machine.perform setting before.store op outside).1)
      (store : after.store = (machine.perform setting before.store op outside).2)
      (noted : after.notes = before.notes.set index
        (machine.protocol.note notes op (machine.perform setting before.store op outside).1)) :
      Moved discipline before after (.call index outside)
  | turned {index : Nat} {setting : Setting} {request : Request} {notes : Notes}
      (held : before.notes[index]? = some notes) (settled : discipline.settled notes)
      (store : after.store = before.store)
      (noted : after.notes = before.notes.set index (machine.opening request)) :
      Moved discipline before after (.turn index setting)

theorem Pool.notes_getElem?
    (found : before.threads[index]? = some thread) : before.notes[index]? = some thread.notes := by
  rw [Pool.notes, List.getElem?_map, found]
  rfl

theorem Discipline.Kept.set (kept : discipline.Kept before)
    (follows : thread.process.Follows machine.protocol
      (fun notes result => discipline.settled notes ∧ ∀ next ∈ result, discipline.admitted next)
      thread.notes) (store : Store) : discipline.Kept ⟨store, before.threads.set index thread⟩ := by
  exact List.forall_mem_set kept follows

theorem step_moved (kept : discipline.Kept before) {action : PoolAction Request Setting Outside}
    (meets : machine.Meets discipline.admitted before action)
    (taken : machine.step before action = some after) :
    discipline.Kept after ∧ Moved discipline before after action := by
  cases action with
  | arrive request setting =>
    cases taken
    refine ⟨List.forall_mem_concat kept (discipline.follows setting request meets), .arrived rfl ?_⟩
    · simp [Pool.notes, begin]
  | call index outside =>
    simp only [step] at taken
    split at taken
    · rename_i request setting op next notes found
      cases taken
      have follows := kept _ (List.mem_of_getElem? found)
      have can := meets setting notes op ⟨request, next, found⟩
      refine ⟨kept.set (follows.2 _ can) _, .called ⟨request, next, found⟩ ?_ follows.1 can rfl ?_⟩
      · exact Pool.notes_getElem? found
      · simp [Pool.notes, List.map_set]
    · cases taken
  | turn index setting =>
    simp only [step] at taken
    split at taken
    · rename_i old setting' request notes found
      cases taken
      have ended : discipline.settled notes ∧ ∀ next ∈ some request, discipline.admitted next :=
        kept _ (List.mem_of_getElem? found)
      have noted : (⟨before.store, before.threads.set index (machine.begin setting request)⟩ :
          Pool Store Request Setting Notes Op Answer).notes =
          before.notes.set index (machine.opening request) := by
        simp [Pool.notes, List.map_set, begin]
      exact ⟨kept.set (discipline.follows setting request (ended.2 request rfl)) _,
        .turned (Pool.notes_getElem? found) ended.1 rfl noted⟩
    · cases taken

end Machine
