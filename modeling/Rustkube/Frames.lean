import Mathlib.Data.List.Chain
import Rustkube.Storage

/- How a watch response is cut into events: one JSON document a line, chunks as they come. -/
namespace Rustkube.Frames

open List Json Storage

def MAX_FRAME : Nat := 16 * 1024 * 1024

def NEWLINE : UInt8 := 10

inductive Fault where
  | exceedsLimit
  | notJson (why : String)

/-- `chunk.split_inclusive(|b| *b == b'\n')` -/
def splitInclusive : Bytes → List Bytes
  | [] => []
  | byte :: rest =>
    if byte = NEWLINE then [byte] :: splitInclusive rest
    else match splitInclusive rest with
      | [] => [[byte]]
      | part :: parts => (byte :: part) :: parts

/-- `u8::is_ascii_whitespace` of every byte: space, tab, line feed, form feed, carriage return. -/
def isBlank (bytes : Bytes) : Bool := bytes.all fun byte => [32, 9, 10, 12, 13].contains byte

/-- `pending`, and the events so far. -/
abbrev State := Bytes × List Value

variable (parse : Bytes → Except String Value)

/-- What a complete line gives. -/
def line (bytes : Bytes) : Except Fault (List Value) :=
  if isBlank bytes then .ok []
  else match parse bytes with
    | .ok event => .ok [event]
    | .error why => .error (.notJson why)

def takePart (state : State) (part : Bytes) : Except Fault State :=
  if MAX_FRAME < state.1.length + part.length then .error .exceedsLimit
  else
    let pending := state.1 ++ part
    if part.getLast? = some NEWLINE then (line parse pending).map fun events =>
      ([], state.2 ++ events)
    else .ok (pending, state.2)

/-- `push`, with what is pending before the call. -/
def push (pending chunk : Bytes) : Except Fault State :=
  (splitInclusive chunk).foldlM (takePart parse) (pending, [])

/-- The chunks, one after the other, from `Frames::default()`. -/
def pushAll (chunks : List Bytes) : Except Fault State :=
  chunks.foldlM (fun state chunk =>
    (push parse state.1 chunk).map fun pushed => (pushed.1, state.2 ++ pushed.2)) ([], [])

/-- The same, byte by byte. -/
def takeByte (state : State) (byte : UInt8) : Except Fault State := takePart parse state [byte]

/-- A line that `push` refuses: too long, or complete, not blank and no JSON. -/
def Refused (bytes : Bytes) : Prop :=
  MAX_FRAME < bytes.length ∨
    bytes.getLast? = some NEWLINE ∧ isBlank bytes = false ∧ (parse bytes).isOk = false

variable {parse} {state : State} {part : Bytes}

theorem takePart_cons {byte : UInt8} (inside : byte ≠ NEWLINE) :
    takePart parse state (byte :: part) =
    takeByte parse state byte >>= fun state => takePart parse state part := by
  have last : (byte :: part).getLast? = some NEWLINE ↔ part.getLast? = some NEWLINE := by
    cases part <;> simp [inside]
  have single : [byte].getLast? ≠ some NEWLINE := by simpa using inside
  unfold takeByte takePart
  simp only [length_cons, length_nil, last, if_neg single]
  by_cases long : MAX_FRAME < state.1.length + 1
  · rw [if_pos (by omega), if_pos (by omega)]
    rfl
  · rw [if_neg (show ¬MAX_FRAME < state.1.length + (0 + 1) by omega)]
    simp [bind, Except.bind, Nat.add_assoc, Nat.add_comm 1]

theorem foldlM_takePart (bytes : Bytes) (state : State) :
    (splitInclusive bytes).foldlM (takePart parse) state = bytes.foldlM (takeByte parse) state := by
  induction bytes generalizing state with
  | nil => rfl
  | cons byte rest ih =>
    have ih := funext ih
    unfold splitInclusive
    rw [foldlM_cons, ← ih]
    split_ifs with ends
    · rfl
    · cases splitInclusive rest with
      | nil => rfl
      | cons first others =>
        simp only [foldlM_cons, takePart_cons ends]
        exact bind_assoc ..

theorem foldlM_takePart_events (parts : List Bytes) (pending : Bytes) (before events : List Value) :
    parts.foldlM (takePart parse) (pending, before ++ events) =
      (parts.foldlM (takePart parse) (pending, events)).map fun state =>
          (state.1, before ++ state.2) := by
  induction parts generalizing pending events with
  | nil => rfl
  | cons part rest ih =>
    have step : takePart parse (pending, before ++ events) part =
        (takePart parse (pending, events) part).map fun state => (state.1, before ++ state.2) := by
      unfold takePart
      dsimp only
      split_ifs
      · rfl
      · cases line parse (pending ++ part) <;> simp [Except.map]
      · rfl
    rw [foldlM_cons, foldlM_cons, step]
    cases takePart parse (pending, events) part with
    | error fault => rfl
    | ok next => exact ih next.1 next.2

/-- The chunks give what their bytes give. -/
theorem pushAll_eq (chunks : List Bytes) :
    pushAll parse chunks = chunks.flatten.foldlM (takeByte parse) ([], []) := by
  have step (state : State) (chunk : Bytes) : ((push parse state.1 chunk).map fun pushed =>
      (pushed.1, state.2 ++ pushed.2)) = chunk.foldlM (takeByte parse) state := by
    rw [push, ← foldlM_takePart_events, append_nil, foldlM_takePart]
  simp only [pushAll, step]
  generalize (([], []) : State) = state
  induction chunks generalizing state with
  | nil => rfl
  | cons chunk rest ih =>
    rw [foldlM_cons, flatten_cons, foldlM_append]
    exact congrArg _ (funext ih)

/-- Only the last line can lack its newline. -/
theorem splitInclusive_complete (bytes : Bytes) :
    (splitInclusive bytes).IsChain fun part _ => part.getLast? = some NEWLINE := by
  induction bytes with
  | nil => exact .nil
  | cons byte rest ih =>
    unfold splitInclusive
    split_ifs with ends
    · exact ih.cons fun _ _ => congrArg some ends
    · cases parts : splitInclusive rest with
      | nil => exact .singleton _
      | cons first later =>
        rw [parts] at ih
        have ⟨complete, others⟩ := isChain_cons.mp ih
        exact others.cons fun part next => by simp [getLast?_cons, complete part next]

attribute [local simp] Except.isOk Except.toBool Except.map Except.bind Except.pure bind pure

theorem foldlM_takePart_isOk {parts : List Bytes}
    (complete : parts.IsChain fun part _ => part.getLast? = some NEWLINE) (events : List Value) :
    (parts.foldlM (takePart parse) ([], events)).isOk = false ↔
      ∃ part ∈ parts, Refused parse part := by
  induction parts generalizing events with
  | nil => simp
  | cons part rest ih =>
    have ⟨ended, later⟩ := isChain_cons.mp complete
    have ih := ih later
    rw [foldlM_cons]
    simp only [mem_cons, exists_eq_or_imp]
    unfold takePart line Refused at *
    rw [nil_append, length_nil, Nat.zero_add]
    by_cases long : MAX_FRAME < part.length
    · simp [long]
    · by_cases ends : part.getLast? = some NEWLINE
      · cases blank : isBlank part with
        | true => simpa [long, ends, blank] using ih events
        | false =>
          cases read : parse part with
          | error why => simp [long, ends, blank, read]
          | ok event => simpa [long, ends, blank, read] using ih (events ++ [event])
      · -- nothing follows a line without its newline
        cases rest with
        | nil => simp [long, ends]
        | cons next rest => exact absurd (ended next rfl) ends

/-- The outcome does not depend on how the bytes are cut, and is a failure exactly when a line is
refused. -/
theorem pushAll_chunks (parse : Bytes → Except String Value) (chunks others : List Bytes)
    (same : chunks.flatten = others.flatten) : pushAll parse chunks = pushAll parse others ∧
      ((pushAll parse chunks).isOk = false ↔
        ∃ part ∈ splitInclusive chunks.flatten, Refused parse part) := by
  rw [pushAll_eq, pushAll_eq, ← same, ← foldlM_takePart]
  exact ⟨rfl, foldlM_takePart_isOk (splitInclusive_complete _) []⟩

/-- A reader of the line that `{}` is. -/
def readEmpty (line : Bytes) : Except String Value :=
  if line = [123, 125, 10] then .ok (.object []) else .error "expected value at line 1 column 1"

/-- Two lines and the start of a third. -/
theorem pushAll_chunks_cut :
    [[123, 125, 10, 123], [125, 10, 123]].flatten =
      [[123], [125, 10, 123, 125, 10], [123]].flatten ∧
      pushAll readEmpty [[123, 125, 10, 123], [125, 10, 123]] =
        .ok ([123], [.object [], .object []]) :=
  ⟨rfl, (pushAll_chunks readEmpty [[123, 125, 10, 123], [125, 10, 123]]
    [[123], [125, 10, 123, 125, 10], [123]] rfl).1.trans rfl⟩

end Rustkube.Frames
