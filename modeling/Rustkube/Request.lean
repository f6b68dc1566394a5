import Rustkube.Rbac

namespace Rustkube

open Json

inductive Reason where
  | notFound
  | alreadyExists
  | conflict
  | badRequest
  | invalid
  | internalError
  | expired
  | unauthorized
  | forbidden
  | serviceUnavailable
  /-- A refusing webhook's own code and reason. -/
  | stated (code : Nat) (text : String)
deriving DecidableEq

def Reason.status : Reason → Nat
  | .notFound => 404
  | .alreadyExists => 409
  | .conflict => 409
  | .badRequest => 400
  | .invalid => 422
  | .internalError => 500
  | .expired => 410
  | .unauthorized => 401
  | .forbidden => 403
  | .serviceUnavailable => 503
  | .stated code _ => code

structure ApiError where
  reason : Reason
  message : String
  continueToken : Option String := none
  details : Option Value := none
deriving DecidableEq

inductive StoreError where
  | notFound (message : String)
  | alreadyExists (message : String)
  | conflict
  | gone (revision : Nat)
  | invalid (message : String)
  | unauthorized (message : String)
  | forbidden (message : String)
  | unavailable (cause : String)
  | other (message : String)
deriving DecidableEq

def ApiError.ofStore : StoreError → ApiError
  | .notFound message => ⟨.notFound, message, none, none⟩
  | .alreadyExists message => ⟨.alreadyExists, message, none, none⟩
  | .conflict => ⟨.conflict, "resource version mismatch", none, none⟩
  | .gone revision =>
    ⟨.expired, "resource version " ++ toString revision ++ " has been compacted", none, none⟩
  | .unauthorized message => ⟨.unauthorized, message, none, none⟩
  | .forbidden message => ⟨.forbidden, message, none, none⟩
  | .invalid message => ⟨.invalid, message, none, none⟩
  | .unavailable cause => ⟨.serviceUnavailable, "datastore unavailable: " ++ cause, none, none⟩
  | .other message => ⟨.internalError, message, none, none⟩

/-- How a handler ends without a result. Indexing a JSON value that is no object for writing
panics: the request dies and nothing it had not yet written is. -/
inductive Failure where
  | api (error : ApiError)
  | panic
deriving DecidableEq

variable {α β : Type} {value : α} {ε : Type}

/-- The value of an operation that may panic. -/
def orPanic : Option α → Except Failure α
  | some value => .ok value
  | none => .error .panic

/-- `Err(ApiError { .. })` -/
def refuse (reason : Reason) (message : String) : Except Failure α :=
  .error (.api ⟨reason, message, none, none⟩)

/-- What the `?` operator does with an `ApiError`. -/
def orFail : Except ApiError α → Except Failure α
  | .ok value => .ok value
  | .error error => .error (.api error)

@[simp] theorem orPanic_eq_ok {result : Option α} :
    orPanic result = .ok value ↔ result = some value := by
  cases result <;> simp [orPanic]

theorem orFail_eq_ok {result : Except ApiError α} :
    orFail result = .ok value ↔ result = .ok value := by
  cases result <;> simp [orFail]

theorem toOption_eq_some {result : Except ε α} :
    result.toOption = some value ↔ result = .ok value := by
  cases result <;> simp [Except.toOption]

@[simp] theorem refuse_ne_ok {reason : Reason} {message : String} :
    refuse reason message ≠ .ok value := by
  simp [refuse]

@[simp] theorem pure_eq_ok {first second : α} :
    (pure first : Except Failure α) = .ok second ↔ first = second := by
  simp [pure, Except.pure]

theorem bind_eq_ok {first : Except ε α} {next : α → Except ε β} {result : β} :
    (first >>= next) = .ok result ↔ ∃ value, first = .ok value ∧ next value = .ok result := by
  cases first with
  | error | ok => simp [bind, Except.bind]

theorem forM_eq_ok {check : α → Except ε Unit} {items : List α} :
    forM items check = .ok () ↔ ∀ item ∈ items, check item = .ok () := by
  induction items with
  | nil => simp [List.forM_nil, pure, Except.pure]
  | cons head rest ih =>
    rw [List.forM_cons, bind_eq_ok, List.forall_mem_cons]
    exact ⟨fun ⟨_, first, others⟩ => ⟨first, ih.mp others⟩,
      fun ⟨first, others⟩ => ⟨(), first, ih.mpr others⟩⟩

structure User where
  username : String
  groups : List String
deriving DecidableEq

inductive Verb where
  | create
  | update
  | patch
  | delete
deriving DecidableEq

/-- What a write does, as the webhooks' rules name it. -/
inductive Operation where
  | create
  | update
  | delete
deriving DecidableEq

def Operation.asStr : Operation → String
  | .create => "CREATE"
  | .update => "UPDATE"
  | .delete => "DELETE"

def Operation.optionsKind : Operation → String
  | .create => "CreateOptions"
  | .update => "UpdateOptions"
  | .delete => "DeleteOptions"

/-- The authorizer, as a request in flight consults it: `RbacEngine::authorize`, and the
escalation check `escalation::confirm` on a role or binding about to be stored. -/
structure Engine where
  authorize : User → Rbac.AuthorizationRequest → Bool
  confirm : User → (resource : String) → (ns : Option String) → (object : Value) →
    (old : Option Value) → Except ApiError Unit

/-- Who asked for a write, and what for. -/
structure RequestAttrs where
  user : User
  verb : Verb
  group : String
  version : String
  resource : String
  subresource : Option String
  ns : Option String
  name : Option String
  dryRun : Bool
  rbac : Option Engine

end Rustkube
