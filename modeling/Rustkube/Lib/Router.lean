import Mathlib.Data.List.Lex
import Mathlib.Data.List.MinMax
import Rustkube.Lib.Text
import Rustkube.Lib.Transition

/- Routes over the segments of a path: which of them a path takes, what that captures, and the
captures as they are handed on, percent-decoded. -/
namespace Router

open List Option

/-- A segment of a route. -/
inductive Piece where
  | literal (text : String)
  | param (name : String)
  | rest (name : String)
deriving DecidableEq

abbrev Captures := List (String × String)

/-- The captures of a path that the route accepts. A parameter takes one segment and a final `rest`
all that are left, and neither takes nothing. -/
def accepts : List Piece → List String → Option Captures
  | [], [] => some []
  | .literal text :: pieces, segment :: segments =>
    if segment = text then accepts pieces segments else none
  | .param name :: pieces, segment :: segments =>
    if segment = "" then none
    else (accepts pieces segments).map ((name, segment) :: ·)
  | [.rest name], segment :: segments =>
    if segment :: segments = [""] then none
    else some [(name, String.intercalate "/" (segment :: segments))]
  | _, _ => none

/-- Literals are tried before parameters, and `rest` last. -/
def Piece.rank : Piece → Nat
  | .literal _ => 0
  | .param _ => 1
  | .rest _ => 2

variable {Route : Type} (pattern : Route → List Piece)

/-- Of the routes that accept a path, the one that prefers literals from the first segment on. -/
def find (routes : List Route) (segments : List String) : Option Route :=
  (routes.filter fun route => (accepts (pattern route) segments).isSome).argmin fun route =>
    (pattern route).map Piece.rank

variable {pattern} {routes : List Route} {segments : List String} {route : Route}

theorem find_least {other : Route} (found : find pattern routes segments = some route)
    (member : other ∈ routes) (accepted : (accepts (pattern other) segments).isSome = true) :
    ¬ (pattern other).map Piece.rank < (pattern route).map Piece.rank :=
  not_lt_of_mem_argmin (f := fun route => (pattern route).map Piece.rank)
    (mem_filter.mpr ⟨member, accepted⟩) found

variable {pieces : List Piece} {captured : Captures}

attribute [local simp] accepts

theorem accepts_nil : accepts [] segments = some captured ↔ segments = [] ∧ captured = [] := by
  cases segments with
  | nil => simp [eq_comm]
  | cons segment segments => simp

theorem accepts_literal {text : String} :
    accepts (.literal text :: pieces) segments = some captured ↔
      ∃ later, segments = text :: later ∧ accepts pieces later = some captured := by
  cases segments with
  | nil => simp
  | cons segment segments =>
    by_cases same : segment = text
    · simp [same]
    · simp [same]

theorem accepts_param {name : String} :
    accepts (.param name :: pieces) segments = some captured ↔
      ∃ segment later inner, segment ≠ "" ∧ segments = segment :: later ∧
        accepts pieces later = some inner ∧ captured = (name, segment) :: inner := by
  cases segments with
  | nil => simp
  | cons segment segments =>
    by_cases empty : segment = ""
    · simp [empty]
    · simp [empty, eq_comm]

/-- A piece that takes one segment and not the empty one. -/
def Piece.solid : Piece → Bool
  | .literal text => text != ""
  | .param _ => true
  | .rest _ => false

theorem accepts_ne_empty (solid : ∀ piece ∈ pieces, piece.solid = true)
    (accepted : accepts pieces segments = some captured) : ∀ segment ∈ segments, segment ≠ "" := by
  induction pieces generalizing segments captured with
  | nil =>
    rw [(accepts_nil.mp accepted).1]
    simp
  | cons piece pieces ih =>
    have later := fun piece member => solid piece (.tail _ member)
    have first := solid piece mem_cons_self
    cases piece with
    | literal text =>
      obtain ⟨rest, rfl, accepts⟩ := accepts_literal.mp accepted
      have here : text ≠ "" := by simpa [Piece.solid] using first
      simpa [here] using ih later accepts
    | param name =>
      obtain ⟨segment, rest, inner, here, rfl, accepts, _⟩ := accepts_param.mp accepted
      simpa [here] using ih later accepts
    | rest name => simp [Piece.solid] at first

def hexDigit (byte : UInt8) : Option UInt8 :=
  if 48 ≤ byte ∧ byte ≤ 57 then some (byte - 48)
  else if 65 ≤ byte ∧ byte ≤ 70 then some (byte - 55)
  else if 97 ≤ byte ∧ byte ≤ 102 then some (byte - 87)
  else none

/-- The byte that a `%` and two hexadecimal digits stand for. -/
def escape : List UInt8 → Option UInt8
  | 37 :: high :: low :: _ => do
    let high ← hexDigit high
    let low ← hexDigit low
    some (high * 16 + low)
  | _ => none

/-- The bytes after the first `skip`, each escape replaced by its byte. A `%` that is none stays. -/
def unescape (skip : Nat) : List UInt8 → List UInt8
  | [] => []
  | byte :: bytes =>
    match skip with
    | skip + 1 => unescape skip bytes
    | 0 =>
      match escape (byte :: bytes) with
      | some value => value :: unescape 2 bytes
      | none => byte :: unescape 0 bytes

/-- What is not UTF-8 afterwards is refused. -/
def percentDecode (text : String) : Option String :=
  String.fromUTF8? ⟨(unescape 0 (Text.utf8 text)).toArray⟩

/-- The captures as a handler gets them. -/
def extract : Captures → Option Captures
  | [] => some []
  | (name, text) :: captured => do
    let text ← percentDecode text
    let captured ← extract captured
    some ((name, text) :: captured)

theorem extract_lookup {captured decoded : Captures} (extracted : extract captured = some decoded)
    (name : String) : decoded.lookup name = (captured.lookup name).bind percentDecode := by
  induction captured generalizing decoded with
  | nil =>
    cases some.inj extracted
    rfl
  | cons capture captured ih =>
    have ⟨other, text⟩ := capture
    have ⟨value, decodes, rest⟩ := bind_eq_some_iff.mp extracted
    have ⟨inner, extracts, done⟩ := bind_eq_some_iff.mp rest
    cases some.inj done
    by_cases same : name = other
    · simp [same, decodes]
    · rw [lookup_cons_of_ne same, lookup_cons_of_ne same]
      exact ih extracts

end Router
