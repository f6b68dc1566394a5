import Rustkube.CsrApi

namespace Rustkube

open Function Admission CsrSubresource Json CsrAdmission

/-- A version that a write stored, the version before it, and who created the request. -/
structure CsrVersion where
  request : RequestAttrs
  creator : User
  before : Option Value
  after : Value

/-- The request names the user who created it. -/
structure CsrStamp (creator : User) (csr : Value) : Prop where
  username : csr["spec"]["username"] = .string creator.username
  groups : csr["spec"]["groups"] = .array (creator.groups.map .string)

/-- Whoever approved a request might, and whoever issued its certificate; and the request is still
what its creator asked for. -/
structure CsrVersion.Permitted (version : CsrVersion) : Prop where
  approved : hasCondition version.after "Approved" = true →
    version.before.any (fun csr => hasCondition csr "Approved") = false →
    authorized version.request "approve" (signerName version.after) = true
  certified : certificate version.after ≠ (version.before.map certificate).getD .null →
    authorized version.request "sign" (signerName version.after) = true
  stamped : CsrStamp version.creator version.after
  spec : ∀ stored, version.before = some stored → version.after["spec"] = stored["spec"]

structure CsrState where
  store : ObjectStore
  creators : String → User
  versions : List CsrVersion

/-- A write by a caller, or the removal of a request. -/
inductive CsrAction where
  | write (caller : CsrCaller) (write : CsrWrite)
  | remove (key : String)

namespace CsrState

def creator (state : CsrState) (key : String) (user : User) : User :=
  if (state.store.entries key).isSome then state.creators key else user

def record (state : CsrState) (request : RequestAttrs) (key : String) (after : ObjectStore) :
    List CsrVersion :=
  match after.entries key with
  | some entry => [⟨request, state.creator key request.user,
      (state.store.entries key).map Entry.object, entry.object⟩]
  | none => []

/-- A write that is refused is no step. -/
def step (state : CsrState) : CsrAction → Option CsrState
  | .write caller write => do
    let (key, after) ← (write.perform caller state.store).toOption
    some ⟨after, Function.update state.creators key (state.creator key caller.user),
      state.versions ++ state.record (caller.request write) key after⟩
  | .remove key => some { state with store := state.store.erase key }

/-- What `csr_admission` does not look at: the status of a new request, and approvals that come
with `/status`. -/
def clear (request : RequestAttrs) (write : CsrWrite) (old : Option Value) (asked : Value) : Bool :=
  let approves := hasCondition asked "Approved" &&
    !old.any (fun csr => hasCondition csr "Approved")
  (!(decide (write.op = .create) || decide (write.part = some .status)) || !approves ||
    authorized request "approve" (signerName asked)) &&
  (decide (write.op ≠ .create) || decide (certificate asked = .null) ||
    authorized request "sign" (signerName asked))

/-- The path spells the name of the object as it is, and the write approves and issues nothing by
the ways that admission does not look at, unless the caller might. -/
def guarded (state : CsrState) : CsrAction → Bool
  | .write caller write =>
    match write.shown caller state.store with
    | .ok (shown, old) =>
      Admission.named (caller.request write) (some shown) old &&
        match (caller.api write).admitWrite write.op shown old with
        | .ok asked => clear (caller.request write) write old asked
        | .error _ => true
    | .error _ => true
  | .remove _ => true

end CsrState

/-- Every stored request names its creator, and every version was permitted. -/
structure CsrInvariant (state : CsrState) : Prop where
  stamped : ∀ name entry, state.store.entries (csrKey name) = some entry →
    CsrStamp (state.creators (csrKey name)) entry.object
  permitted : ∀ version ∈ state.versions, version.Permitted

variable {old : Option Value}

namespace CsrState

variable {request : RequestAttrs} {write : CsrWrite} {asked : Value}

theorem clear_approval (free : clear request write old asked = true)
    (unchecked : write.op = .create ∨ write.part = some .status)
    (approved : hasCondition asked "Approved" = true)
    (new : old.any (fun csr => hasCondition csr "Approved") = false) :
    authorized request "approve" (signerName asked) = true := by
  have first := (Bool.and_eq_true_iff.mp free).1
  rcases unchecked with creates | status
  · simpa [creates, approved, new] using first
  · simpa [status, approved, new] using first

theorem clear_certificate (free : clear request write old asked = true)
    (creates : write.op = .create) (issued : certificate asked ≠ .null) :
    authorized request "sign" (signerName asked) = true := by
  have second := (Bool.and_eq_true_iff.mp free).2
  simpa [creates, issued] using second

end CsrState

variable {write : CsrWrite} {caller : CsrCaller}

theorem CsrVersion.permitted_create {shown asked csr : Value} (creates : write.op = .create)
    (names : named (caller.request write) (some shown) none = true)
    (admitted : (caller.api write).admitWrite write.op shown none = .ok asked)
    (free : CsrState.clear (caller.request write) write none asked = true)
    (same : SameCsr csr asked) :
    Permitted ⟨caller.request write, caller.user, none, csr⟩ := by
  have stamped := caller.create_stamped names creates admitted
  constructor
  · intro approved new
    rw [same.hasCondition] at approved
    rw [same.signerName]
    exact CsrState.clear_approval free (.inl creates) approved new
  · intro issued
    rw [same.certificate] at issued
    rw [same.signerName]
    exact CsrState.clear_certificate free creates issued
  · constructor
    · rw [same.spec, stamped.1]
    · rw [same.spec, stamped.2]
  · intro stored none
    cases none

attribute [local simp] CsrCaller.request

/-- A guarded write to a stored request that names its creator stores a permitted version. -/
theorem CsrVersion.permitted_update {creator : User}
    {shown existing asked stored csr : Value} (updates : write.op = .update)
    (names : named (caller.request write) (some shown) (some existing) = true)
    (admitted : (caller.api write).admitWrite write.op shown (some existing) = .ok asked)
    (free : CsrState.clear (caller.request write) write (some existing) asked = true)
    (read : SameCsr existing stored) (same : SameCsr csr asked) (stamp : CsrStamp creator stored) :
    Permitted ⟨caller.request write, creator, some stored, csr⟩ := by
  have kept := caller.update_kept names updates admitted
  have spec : csr["spec"] = stored["spec"] := by rw [same.spec, kept.spec, read.spec]
  have signer : signerName csr = signerName existing := by
    unfold signerName
    rw [spec, read.spec]
  have main : write.part = none → SameCsr csr stored := fun whole =>
    ⟨spec, by rw [same.status, kept.main (by simp [whole]), read.status]⟩
  constructor
  · intro approved new
    cases part : write.part with
    | none =>
      rw [(main part).hasCondition] at approved
      simp [approved] at new
    | some part' =>
      cases part' with
      | approval =>
        rw [signer]
        exact (kept.approval (by simp [part, text])).2
      | status =>
        rw [same.hasCondition] at approved
        rw [same.signerName]
        apply CsrState.clear_approval free (.inr part) approved
        simpa [read.hasCondition] using new
  · intro differs
    change certificate csr ≠ certificate stored at differs
    cases part : write.part with
    | none => exact absurd (main part).certificate differs
    | some part' =>
      rw [same.certificate, ← read.certificate] at differs
      cases part' with
      | approval =>
        have approval := kept.approval (by simp [part, text])
        exact absurd approval.1 differs
      | status =>
        rw [signer]
        have status := kept.status (by simp [part, text])
        exact status.resolve_left differs
  · exact ⟨by rw [spec, stamp.username], by rw [spec, stamp.groups]⟩
  · intro before equal
    rw [← Option.some.inj equal, spec]

theorem CsrState.write_permitted {state : CsrState}
    {name : String} {shown asked csr : Value} {store : ObjectStore} (inv : CsrInvariant state)
    (kind : write.op = .create ∧ old = none ∨ write.op = .update ∧ old.isSome = true)
    (names : named (caller.request write) (some shown) old = true)
    (admitted : (caller.api write).admitWrite write.op shown old = .ok asked)
    (free : clear (caller.request write) write old asked = true)
    (landed : CsrLanded state.store (csrKey name) old asked store) (same : SameCsr csr asked) :
    CsrVersion.Permitted ⟨caller.request write, state.creator (csrKey name) caller.user,
      (state.store.entries (csrKey name)).map Entry.object, csr⟩ := by
  rcases kind with ⟨creates, rfl⟩ | ⟨updates, isOld⟩
  · rw [creator, landed.created rfl]
    exact CsrVersion.permitted_create creates names admitted free same
  · obtain ⟨existing, rfl⟩ := Option.isSome_iff_exists.mp isOld
    have ⟨entry, found, read⟩ := landed.read existing rfl
    rw [creator, found]
    exact CsrVersion.permitted_update updates names admitted free read same
      (inv.stamped name entry found)

theorem CsrState.write_invariant {state after : CsrState}
    (inv : CsrInvariant state) (safe : state.guarded (.write caller write) = true)
    (taken : state.step (.write caller write) = some after) : CsrInvariant after := by
  have ⟨⟨key, store⟩, performed, done⟩ := Option.bind_eq_some_iff.mp taken
  obtain ⟨name, shown, old, asked, rfl, shows, kind, admitted, landed⟩ :=
    CsrWrite.perform_ok (toOption_eq_some.mp performed)
  have guards : named (caller.request write) (some shown) old = true ∧
      clear (caller.request write) write old asked = true := by
    simpa [guarded, shows, admitted] using safe
  have permits (csr : Value) (same : SameCsr csr asked) :=
    state.write_permitted inv kind guards.1 admitted guards.2 landed same
  cases done
  constructor
  · intro other entry stored
    rcases landed.stored stored with ⟨different, kept⟩ | ⟨equal, same⟩
    · change CsrStamp (update state.creators _ _ (csrKey other)) entry.object
      rw [update_of_ne different]
      exact inv.stamped other entry kept
    · change CsrStamp (update state.creators _ _ (csrKey other)) entry.object
      rw [equal, update_self]
      exact (permits entry.object same).stamped
  · intro version member
    rcases List.mem_append.mp member with before | new
    · exact inv.permitted version before
    · rcases landed.written with rfl | ⟨csr, rfl, same⟩
      · simp [record] at new
      · rw [record, ObjectStore.write_entries_self] at new
        rw [List.mem_singleton.mp new]
        exact permits csr same

/-- In a run of guarded writes nobody approves a request, or issues its certificate, who might not,
and every request is still what its creator asked for. -/
theorem csr_writes_permitted (store : ObjectStore) (creators : String → User) (state : CsrState)
    (absent : ∀ name, store.entries (csrKey name) = none)
    (reached : Transition.Reaches CsrState.step (fun state action => state.guarded action = true)
      ⟨store, creators, []⟩ state) :
    ∀ version ∈ state.versions, version.Permitted := by
  have inv : CsrInvariant state := by
    apply reached.invariant
    · refine ⟨fun name entry stored => ?_, by simp⟩
      rw [absent name] at stored
      cases stored
    · intro before action after inv safe taken
      cases action with
      | write caller write => exact before.write_invariant inv safe taken
      | remove key =>
        cases taken
        refine ⟨fun name entry stored => ?_, inv.permitted⟩
        by_cases equal : csrKey name = key
        · rw [equal] at stored
          simp at stored
        · exact inv.stamped name entry
            (by rwa [ObjectStore.erase_entries_of_ne _ _ equal] at stored)
  exact inv.permitted

def approvedCondition : Value := .object [("status", .string "True"), ("type", .string "Approved")]

/-- The request `web` for a client certificate, with the given status. -/
def webCsr (status : List (String × Value)) : Value := .object [
  ("apiVersion", .string "certificates.k8s.io/v1"),
  ("kind", .string "CertificateSigningRequest"),
  ("metadata", .object [("name", .string "web")]),
  ("spec", .object [("request", .string "LS0tLS1CRUdJTg=="),
    ("signerName", .string "kubernetes.io/kube-apiserver-client")]),
  ("status", .object status)]

/-- Everybody may write CertificateSigningRequests; `approver` may approve and `signer` sign. -/
def webEngine : Engine where
  authorize user request :=
    request.resource == "certificatesigningrequests" ||
    (user.username == "approver" && request.verb == "approve") ||
    (user.username == "signer" && request.verb == "sign")
  confirm _ _ _ _ _ := .ok ()

def webCaller (username : String) (pathName : Option String) : CsrCaller where
  user := ⟨username, ["system:authenticated"]⟩
  rbac := some webEngine
  pathName := pathName
  name := "web"
  world := .quiet
  rules := settingsApi.rules
  codec := settingsCodec

def noUser : User := ⟨"", []⟩

/-- A request that is approved and then signed, each by who may. -/
def issueWeb : List CsrAction :=
  [.write (webCaller "alice" none) (.create .quiet (webCsr [])),
    .write (webCaller "approver" (some "web"))
      (.putPart .approval (webCsr [("conditions", .array [approvedCondition])])),
    .write (webCaller "signer" (some "web"))
      (.putPart .status (webCsr [("certificate", .string "LS0tLS1DRVJU"),
        ("conditions", .array [approvedCondition])]))]

theorem csr_writes_permitted_issued : ∃ state,
    Transition.Reaches CsrState.step (fun state action => state.guarded action = true)
      ⟨.empty, fun _ => noUser, []⟩ state ∧
    state.versions.length = 3 ∧ ∀ version ∈ state.versions, version.Permitted := by
  refine Transition.exists_reaches_of issueWeb (fun state => state.versions.length == 3)
    (by decide +kernel) fun state reached three => ?_
  exact ⟨by simpa using three,
    csr_writes_permitted .empty (fun _ => noUser) state (fun _ => rfl) reached⟩

def createWeb (status : List (String × Value)) : CsrAction :=
  .write (webCaller "alice" none) (.create .quiet (webCsr status))

/-- A run from the empty store to a version that was not permitted. -/
def Unpermitted (actions : List CsrAction) : Prop :=
  ∃ state version, Transition.run CsrState.step (fun _ _ => True) ⟨.empty, fun _ => noUser, []⟩
      actions = some state ∧
    state.versions.getLast? = some version ∧ ¬ version.Permitted

/-- Who may only write requests creates one that is approved and has its certificate, approves a
stored one through `/status`, and by a path that spells `web` as `we%62` gives it another spec. -/
theorem csr_writes_unpermitted :
    Unpermitted [createWeb [("certificate", .string "LS0tLS1DRVJU"),
      ("conditions", .array [approvedCondition])]] ∧
    Unpermitted [createWeb [], .write (webCaller "alice" (some "web"))
      (.putPart .status (webCsr [("conditions", .array [approvedCondition])]))] ∧
    Unpermitted [createWeb [], .write (webCaller "alice" (some "we%62"))
      (.put (.object [("metadata", .object [("name", .string "web")])]))] := by
  refine ⟨⟨_, _, rfl, rfl, fun permitted => ?_⟩, ⟨_, _, rfl, rfl, fun permitted => ?_⟩,
    ⟨_, _, rfl, rfl, fun permitted => ?_⟩⟩
  · exact absurd (permitted.approved (by decide) (by decide)) (by decide)
  · exact absurd (permitted.approved (by decide) (by decide)) (by decide)
  · exact absurd permitted.stamped.username (by decide)

end Rustkube
