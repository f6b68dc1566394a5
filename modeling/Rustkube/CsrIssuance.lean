import Rustkube.CsrApi

namespace Rustkube

open Json CsrAdmission

/-- The parts of a subject that name whom a certificate stands for. -/
structure Subject where
  organizations : List String
  commonName : String
deriving DecidableEq

def Subject.isNode (subject : Subject) : Bool :=
  subject.organizations == ["system:nodes"] && Text.startsWith subject.commonName "system:node:"

/-- Base64 and rcgen. `decode` is the text of a base64 value and `sign` a PEM request signed with
the CA certificate and key; `requested` is the subject a PEM request asks for and `issued` that of
a PEM certificate. rcgen issues the subject that is asked for. -/
structure Pki where
  decode : String → Option String
  encode : String → String
  sign : (request caCert caKey : String) → Option String
  requested : String → Subject
  issued : String → Subject
  exact : ∀ request caCert caKey pem, sign request caCert caKey = some pem →
    issued pem = requested request

def KUBELET_CLIENT_SIGNER : String := "kubernetes.io/kube-apiserver-client-kubelet"

/-- The signerNames that are signed with the cluster CA. -/
def SIGNERS : List String :=
  ["kubernetes.io/kube-apiserver-client", KUBELET_CLIENT_SIGNER, "kubernetes.io/kubelet-serving",
    "kubernetes.io/legacy-unknown"]

/-- The CA's certificate and key, without which it only approves, and the signerNames an external
signer handles. -/
structure CsrController where
  ca : Option (String × String)
  external : List String

/-- What a pass asks the API server for: nothing, an approval, or the publication of a certificate
that it signed. -/
inductive CsrDecision where
  | leave
  | approve (body : Value)
  | issue (body : Value) (pem : String)

namespace CsrController

variable (pki : Pki) (controller : CsrController)

/-- One of the signers that it implements, and not one the external signer takes. -/
def isOurs (csr : Value) : Bool :=
  SIGNERS.contains (signerName csr) && !controller.external.contains (signerName csr)

/-- Kubelet client requests are approved; everything else waits for a person. -/
def shouldAutoApprove (csr : Value) : Bool :=
  csr["spec"]["signerName"].asStr? == some KUBELET_CLIENT_SIGNER

def autoApproved : Value := .object [
  ("message", .string "Auto-approved kubelet client CSR by controller-manager"),
  ("reason", .string "AutoApproved"), ("status", .string "True"), ("type", .string "Approved")]

def approve (csr : Value) : CsrDecision :=
  let conditions := csr["status"]["conditions"].asArray?.getD []
  match csr.assignIn "status" "conditions" (.array (conditions ++ [autoApproved])) with
  | some body => .approve body
  | none => .leave

/-- The PEM certificate for the request, signed with the CA. -/
def signed (ca : String × String) (csr : Value) : Option String := do
  let encoded ← csr["spec"]["request"].asStr?
  let request ← pki.decode encoded
  pki.sign request ca.1 ca.2

def sign (ca : String × String) (csr : Value) : CsrDecision :=
  match signed pki ca csr with
  | none => .leave
  | some pem =>
    match csr.assignIn "status" "certificate" (.string (pki.encode pem)) with
    | some body => .issue body pem
    | none => .leave

/-- `reconcile_csr`, on the request as its informer has it. -/
def reconcile (csr : Value) : CsrDecision :=
  let approved := hasCondition csr "Approved"
  let denied := hasCondition csr "Denied"
  if csr["metadata"]["name"].asStr?.getD "" = "" then .leave
  else if !controller.isOurs csr then .leave
  else if !approved && !denied && shouldAutoApprove csr then approve csr
  else if approved && ((csr["status"].get? "certificate").bind Value.asStr?).isNone then
    match controller.ca with
    | some ca => sign pki ca csr
    | none => .leave
  else .leave

end CsrController

/-- What the request asks a certificate for, if that is a certificate request, is a node. -/
def asksNode (pki : Pki) (csr : Value) : Bool :=
  ((csr["spec"]["request"].asStr?.bind pki.decode).map pki.requested).all Subject.isNode

/-- A version of a request that the API server served: the object with its resourceVersion. -/
structure CsrView where
  name : String
  entry : Entry
  object : Value
  served : Storage.injectResourceVersion entry.object entry.modRevision = some object

/-- A certificate that was published: the request it was signed for as it was stored then, whether
anybody but the controller had approved that, and the certificate. -/
structure Issued where
  csr : Value
  approvedByOthers : Bool
  pem : String

/-- What the controller approves alone is a node's, and nothing denied is issued. -/
structure Issued.Proper (pki : Pki) (issued : Issued) : Prop where
  node : issued.approvedByOthers = false → (pki.issued issued.pem).isNode = true
  undenied : hasCondition issued.csr "Denied" = false

structure IssuanceState where
  store : ObjectStore
  views : List CsrView
  approvedByOthers : String → Bool
  issued : List Issued

/-- Somebody else's write or removal, a version that reaches the controller, or a pass of the
controller on one that did. `caller` of a pass is the controller, as its request is served. -/
inductive IssuanceAction where
  | write (caller : CsrCaller) (write : CsrWrite)
  | remove (key : String)
  | serve (name : String)
  | pass (caller : CsrCaller) (index : Nat)

namespace IssuanceState

variable (pki : Pki) (controller : CsrController)

/-- The current version of a request, as a list or a watch delivers it. -/
def view (state : IssuanceState) (name : String) : Option CsrView :=
  match state.store.entries (csrKey name) with
  | none => none
  | some entry =>
    match served : Storage.injectResourceVersion entry.object entry.modRevision with
    | some object => some ⟨name, entry, object, served⟩
    | none => none

def approvedIn (store : ObjectStore) (key : String) : Bool :=
  (store.entries key).any fun entry => hasCondition entry.object "Approved"

/-- Others approved the request before, or did now. A request that is created is a new one. -/
def approval (state : IssuanceState) (key : String) (after : ObjectStore) : Bool :=
  ((state.store.entries key).isSome && state.approvedByOthers key) ||
    (approvedIn after key && !approvedIn state.store key)

def issue (state : IssuanceState) (key pem : String) : List Issued :=
  match state.store.entries key with
  | some entry => [⟨entry.object, state.approvedByOthers key, pem⟩]
  | none => []

/-- The controller's request is served. -/
def carryOut (state : IssuanceState) (caller : CsrCaller) : CsrDecision → Option IssuanceState
  | .leave => none
  | .approve body => do
    let (_, after) ← (CsrWrite.perform caller (.putPart .approval body) state.store).toOption
    some { state with store := after }
  | .issue body pem => do
    let (key, after) ← (CsrWrite.perform caller (.putPart .status body) state.store).toOption
    some { state with store := after, issued := state.issued ++ state.issue key pem }

/-- What is refused, or asks for nothing, is no step. -/
def step (state : IssuanceState) : IssuanceAction → Option IssuanceState
  | .write caller write => do
    let (key, after) ← (write.perform caller state.store).toOption
    some { state with
      store := after
      approvedByOthers := Function.update state.approvedByOthers key (state.approval key after) }
  | .remove key => some { state with store := state.store.erase key }
  | .serve name => do
    let view ← state.view name
    some { state with views := state.views ++ [view] }
  | .pass caller index => do
    let view ← state.views[index]?
    state.carryOut caller (controller.reconcile pki view.object)

/-- What others ask to store: a kubelet's client request asks for a node, a stored request keeps its
spec, and none is both approved and denied. -/
def acceptable (old : Option Value) (asked : Value) : Bool :=
  (signerName asked != KUBELET_CLIENT_SIGNER || asksNode pki asked) &&
    old.all (fun stored => asked["spec"] == stored["spec"]) &&
    !(hasCondition asked "Approved" && hasCondition asked "Denied")

/-- Whether what admission gives back for a write passes the test. -/
def asks (caller : CsrCaller) (write : CsrWrite) (store : ObjectStore)
    (test : (shown : Value) → (old : Option Value) → (asked : Value) → Bool) : Bool :=
  match write.shown caller store with
  | .ok (shown, old) =>
    match (caller.api write).admitWrite write.op shown old with
    | .ok asked => test shown old asked
    | .error _ => true
  | .error _ => true

/-- The mutating webhooks deny nothing that they are shown undenied. -/
def undenied (shown : Value) (_old : Option Value) (asked : Value) : Bool :=
  !hasCondition asked "Denied" || hasCondition shown "Denied"

def sound (state : IssuanceState) : IssuanceAction → Bool
  | .write caller write => asks caller write state.store fun _ old asked => acceptable pki old asked
  | .pass caller index =>
    match state.views[index]? with
    | some view =>
      match controller.reconcile pki view.object with
      | .approve body => asks caller (.putPart .approval body) state.store undenied
      | .issue body _ => asks caller (.putPart .status body) state.store undenied
      | .leave => true
    | none => true
  | .remove _ | .serve _ => true

end IssuanceState

open CsrWrite Bool CsrController ObjectStore Option Value Text

variable {body : Value} {store : ObjectStore} {old : Option Value} {caller : CsrCaller}
  {part : CsrSubresource}

section

theorem csrKey_startsWith (name : String) :
    startsWith (csrKey name) "/registry/secrets/" = false ∧
      startsWith (csrKey name) "/registry/namespaces/" = false ∧
      startsWith (csrKey name) "/registry/services/" = false := by
  have chars : (csrKey name).toList = "/registry/certificatesigningrequests/".toList ++
      name.toList := by
    simp only [csrKey, clusterKey, String.toList_append]
    rfl
  unfold startsWith
  rw [chars]
  exact ⟨rfl, rfl, rfl⟩

variable {existing after shown asked : Value}

theorem builtinUpdate_csr {rules : KindRules} {subresource : Option String} {name : String}
    (updated : rules.builtinUpdate subresource (csrKey name) existing body = .ok after) :
    SameCsr after body := by
  have ⟨secret, namespaced, service⟩ := csrKey_startsWith name
  have ⟨counted, first, rest⟩ := bind_eq_ok.mp updated
  have ⟨kept, second, rest⟩ := bind_eq_ok.mp rest
  have ⟨_, _, rest⟩ := bind_eq_ok.mp rest
  have ⟨_, _, last⟩ := bind_eq_ok.mp rest
  have unplanned : kept = after := by
    simpa [KindRules.planService, service] using last
  have unheld : counted = kept := by
    simpa [KindRules.keepFinalizers, namespaced] using orPanic_eq_ok.mp second
  have unfolded : rules.foldSecret (csrKey name) body = body := by
    simp [KindRules.foldSecret, secret]
  have resource : metricResource (csrKey name) = CsrAdmission.RESOURCE :=
    metricResource_key name (by decide) (by decide) (by decide)
  have plain : Quantity.numbersToStrings rules.canonical CsrAdmission.RESOURCE body = body :=
    if_neg (by decide)
  rw [unfolded, resource, plain] at first
  rw [← unplanned, ← unheld]
  exact SameCsr.of_index (Generation.onUpdate_within (orPanic_eq_ok.mp first)).outside

theorem putStatus_index (written : putStatus body existing = .ok after) :
    after["spec"] = existing["spec"] ∧
      ∀ status, body.get? "status" = some status → after["status"] = status := by
  have ⟨first, writes, rest⟩ := bind_eq_some_iff.mp (orPanic_eq_ok.mp written)
  have others := (statusWriteMetadata_within rest).outside
  rw [others "spec" (by decide), others "status" (by decide)]
  unfold writeStatus at writes
  cases given : body.get? "status" with
  | none =>
    rw [given] at writes
    rw [some.inj writes]
    exact ⟨rfl, by simp⟩
  | some status =>
    rw [given] at writes
    exact ⟨assign_of_ne writes (by decide),
      fun other same => (assign_self writes).trans (some.inj same)⟩

theorem CsrWrite.putPart_shown (shows : (putPart part body).shown caller store = .ok (shown, old)) :
    ∃ existing, old = some existing ∧ store.get (csrKey caller.name) = .ok existing ∧
      shown["spec"] = existing["spec"] ∧
      ∀ status, body.get? "status" = some status → shown["status"] = status := by
  have ⟨existing, read, rest⟩ := bind_eq_ok.mp shows
  have ⟨obj, sent, done⟩ := bind_eq_ok.mp rest
  cases pure_eq_ok.mp done
  refine ⟨existing, rfl, read, ?_⟩
  have ⟨mutated, mutates, rest⟩ := bind_eq_ok.mp sent
  split_ifs at rest with shape
  · simp at rest
  · have ⟨built, builds, last⟩ := bind_eq_ok.mp rest
    have kept := (keepServerFields_spec (orPanic_eq_ok.mp last)).1
    have same := builtinUpdate_csr builds
    have status := putStatus_index mutates
    rw [kept.outside "spec" (by decide), kept.outside "status" (by decide), same.spec, same.status]
    exact status

theorem CsrCaller.admit_unnamed {write : CsrWrite}
    (unnamed : Admission.named (caller.request write) (some shown) old = false)
    (admitted : (caller.api write).admitWrite write.op shown old = .ok asked) : asked = shown := by
  have ⟨result, ran, done⟩ := bind_eq_ok.mp admitted
  simp only [api, Admission.admitWrite, unnamed, Bool.not_false, Bool.or_true, Bool.true_or,
    if_true] at ran
  rw [← pure_eq_ok.mp done, ← pure_eq_ok.mp ran]
  rfl

theorem CsrCaller.putPart_spec (same : shown["spec"] = existing["spec"])
    (admitted : (caller.api (.putPart part body)).admitWrite .update shown (some existing) =
      .ok asked) :
    asked["spec"] = existing["spec"] := by
  by_cases names : Admission.named (caller.request (.putPart part body)) (some shown)
      (some existing) = true
  · exact (update_kept names rfl admitted).spec
  · rw [admit_unnamed (by simpa using names) admitted, same]

theorem CsrWrite.putPart_version {result : String × ObjectStore} {version : String}
    (performed : (putPart part body).perform caller store = .ok result)
    (read : store.get (csrKey caller.name) = .ok existing)
    (names : statusPrecondition body = some version) : Api.versionOf existing = version := by
  have ⟨after, changed, _⟩ := bind_eq_ok.mp performed
  have ⟨found, commit, reads, prepared, _⟩ := ObjectWrite.perform_ok changed
  obtain rfl : found = existing := by simpa [read] using reads.symm
  simp only [ObjectWrite.prepare, ObjectWrite.precondition, Api.guaranteedUpdate, names,
    any_some] at prepared
  by_contra other
  rw [if_pos (by simpa using Ne.symm other)] at prepared
  simp at prepared

end

variable {view : CsrView}

theorem CsrView.lands {result : String × ObjectStore}
    (remembered : store.Remembers (csrKey view.name) view.entry)
    (version : body["metadata"] = view.object["metadata"])
    (performed : (putPart part body).perform caller store = .ok result) :
    csrKey caller.name = csrKey view.name ∧ store.entries (csrKey caller.name) =
      some view.entry := by
  have names : statusPrecondition body = some (toString view.entry.modRevision) := by
    unfold statusPrecondition
    rw [version, injectResourceVersion_version view.served]
    exact filter_eq_some_iff.mpr ⟨rfl, by simp⟩
  have ⟨after, changed, _⟩ := bind_eq_ok.mp performed
  have ⟨existing, commit, read, _, _⟩ := ObjectWrite.perform_ok changed
  have equal := putPart_version performed read names
  have ⟨entry, found, injected⟩ := get_ok read
  unfold Api.versionOf at equal
  rw [injectResourceVersion_version injected] at equal
  have same := remembered.current _ entry found (decimal_injective equal)
  exact ⟨same.1, by rw [found, same.2]⟩

theorem CsrView.same (view : CsrView) : SameCsr view.object view.entry.object :=
  SameCsr.of_index (injectResourceVersion_within view.served).outside

variable {ca : String × String}

section

variable {pki : Pki} {controller : CsrController} {csr body : Value} {pem : String}

/-- What the controller sends for a request: the version it saw, denied if that is. -/
structure CsrController.Sends (csr body : Value) : Prop where
  metadata : body["metadata"] = csr["metadata"]
  status : ∃ status, body.get? "status" = some status
  denied : hasCondition body "Denied" = hasCondition csr "Denied"

theorem CsrController.Sends.of_assignIn {name : String} {field : Value}
    (written : csr.assignIn "status" name field = some body)
    (denied : hasCondition body "Denied" = hasCondition csr "Denied") : Sends csr body := by
  have ⟨inner, _, outer⟩ := bind_eq_some_iff.mp written
  exact ⟨assignIn_of_ne written (by decide), ⟨inner, assign_get?_self outer⟩, denied⟩

theorem CsrController.approve_sends (approves : approve csr = .approve body) : Sends csr body := by
  unfold approve at approves
  simp only at approves
  split at approves
  · next written sent =>
    cases approves
    apply Sends.of_assignIn sent
    unfold hasCondition
    rw [assignIn_self sent]
    cases csr["status"]["conditions"].asArray? with
    | none => rfl
    | some conditions =>
      have other : (autoApproved["type"].asStr? == some "Denied") = false := by decide
      simp [asArray?, other]
  · cases approves

theorem CsrController.sign_sends (issues : sign pki ca csr = .issue body pem) :
    signed pki ca csr = some pem ∧ Sends csr body := by
  unfold sign at issues
  split at issues
  · cases issues
  · next found signs =>
    split at issues
    · next written sent =>
      cases issues
      refine ⟨signs, Sends.of_assignIn sent ?_⟩
      unfold hasCondition
      rw [assignIn_inner_of_ne sent (by decide)]
    · cases issues

theorem CsrController.reconcile_approve (decided : controller.reconcile pki csr = .approve body) :
    signerName csr = KUBELET_CLIENT_SIGNER ∧ hasCondition csr "Denied" = false ∧
      Sends csr body := by
  unfold reconcile at decided
  simp only at decided
  split_ifs at decided with unnamed foreign eligible approved
  · simp only [and_eq_true, not_eq_true', shouldAutoApprove, beq_iff_eq] at eligible
    refine ⟨?_, eligible.1.2, approve_sends decided⟩
    rw [signerName, eligible.2]
    rfl
  · split at decided
    · next ca _ =>
      unfold sign at decided
      split at decided
      · cases decided
      · split at decided <;> cases decided
    · cases decided

theorem CsrController.reconcile_issue (decided : controller.reconcile pki csr = .issue body pem) :
    hasCondition csr "Approved" = true ∧ (∃ ca, signed pki ca csr = some pem) ∧ Sends csr body := by
  unfold reconcile at decided
  simp only at decided
  split_ifs at decided with unnamed foreign eligible approved
  · unfold approve at decided
    simp only at decided
    split at decided <;> cases decided
  · split at decided
    · next ca _ =>
      have signs := sign_sends decided
      exact ⟨(and_eq_true_iff.mp approved).1, ⟨ca, signs.1⟩, signs.2⟩
    · cases decided

end

/-- A stored request: a kubelet's asks for a node, what the controller alone approved is a
kubelet's, and none is both approved and denied. -/
structure StoredCsr (pki : Pki) (approvedByOthers : Bool) (csr : Value) : Prop where
  node : signerName csr = KUBELET_CLIENT_SIGNER → asksNode pki csr = true
  alone : hasCondition csr "Approved" = true → approvedByOthers = false →
    signerName csr = KUBELET_CLIENT_SIGNER
  exclusive : hasCondition csr "Approved" = true → hasCondition csr "Denied" = false

/-- The versions the controller saw were stored, the stored requests are in order, and so is every
certificate. -/
structure IssuanceInvariant (pki : Pki) (state : IssuanceState) : Prop where
  views : ∀ view ∈ state.views, state.store.Remembers (csrKey view.name) view.entry
  stored : ∀ name entry, state.store.entries (csrKey name) = some entry →
    StoredCsr pki (state.approvedByOthers (csrKey name)) entry.object
  issued : ∀ issued ∈ state.issued, issued.Proper pki

section

variable {pki : Pki} {controller : CsrController} {state after : IssuanceState} {key : String}

theorem asksNode_congr {first second : Value} (same : first["spec"] = second["spec"]) :
    asksNode pki first = asksNode pki second := by
  unfold asksNode
  rw [same]

/-- A write keeps the invariant if what it stores is in order. -/
theorem IssuanceInvariant.land {asked : Value} {approvals : String → Bool} {issued : List Issued}
    (inv : IssuanceInvariant pki state) (landed : CsrLanded state.store key old asked store)
    (others : ∀ other, other ≠ key → approvals other = state.approvedByOthers other)
    (stored : ∀ entry, store.entries key = some entry → SameCsr entry.object asked →
      StoredCsr pki (approvals key) entry.object) (proper : ∀ one ∈ issued, one.Proper pki) :
    IssuanceInvariant pki ⟨store, state.views, approvals, issued⟩ := by
  constructor
  · intro view member
    exact landed.remembers (inv.views view member)
  · intro name entry found
    change StoredCsr pki (approvals (csrKey name)) entry.object
    rcases landed.stored found with ⟨different, before⟩ | ⟨same, asks⟩
    · rw [others _ different]
      exact inv.stored name entry before
    · rw [same] at found ⊢
      exact stored entry found asks
  · exact proper

theorem IssuanceState.approval_eq_false {entry : Entry}
    (found : store.entries key = some entry)
    (approved : hasCondition entry.object "Approved" = true)
    (alone : state.approval key store = false) :
    ∃ before, state.store.entries key = some before ∧
      hasCondition before.object "Approved" = true ∧ state.approvedByOthers key = false := by
  unfold approval approvedIn at alone
  cases present : state.store.entries key with
  | none => simp [present, found, approved] at alone
  | some before =>
    have parts : state.approvedByOthers key = false ∧ hasCondition before.object "Approved" =
        true := by
      simpa [present, found, approved] using alone
    exact ⟨before, rfl, parts.2, parts.1⟩

theorem IssuanceState.write_invariant {write : CsrWrite} (inv : IssuanceInvariant pki state)
    (safe : state.sound pki controller (.write caller write) = true)
    (taken : state.step pki controller (.write caller write) = some after) :
    IssuanceInvariant pki after := by
  have ⟨⟨key, store⟩, performed, done⟩ := bind_eq_some_iff.mp taken
  obtain ⟨name, shown, old, asked, rfl, shows, _, admitted, landed⟩ :=
    perform_ok (toOption_eq_some.mp performed)
  have accepted : acceptable pki old asked = true := by
    simpa [sound, asks, shows, admitted] using safe
  simp only [acceptable, and_eq_true, or_eq_true, bne_iff_ne, not_eq_true',
    and_eq_false_iff] at accepted
  have ⟨⟨node, kept⟩, exclusive⟩ := accepted
  cases done
  apply inv.land landed
  · intro other different
    exact Function.update_of_ne different ..
  · intro entry found same
    rw [Function.update_self]
    constructor
    · intro kubelet
      rw [same.signerName] at kubelet
      rw [asksNode_congr same.spec]
      exact node.resolve_left (fun other => other kubelet)
    · intro approved alone
      have ⟨before, present, approvedBefore, others⟩ := state.approval_eq_false found approved alone
      have spec : entry.object["spec"] = before.object["spec"] := by
        cases old with
        | none =>
          rw [landed.created rfl] at present
          cases present
        | some existing =>
          have ⟨read, here, seen⟩ := landed.read existing rfl
          cases some.inj (here.symm.trans present)
          have unchanged : asked["spec"] = existing["spec"] := by simpa using kept
          rw [same.spec, unchanged, seen.spec]
      have kubelet := (inv.stored name before present).alone approvedBefore others
      unfold signerName at kubelet ⊢
      rw [spec]
      exact kubelet
    · intro approved
      rw [same.hasCondition] at approved ⊢
      simpa [approved] using exclusive
  · exact inv.issued

/-- What a request of the controller did: it landed on the version that it saw, kept the spec, and
denied nothing. -/
structure CsrView.Answered (view : CsrView) (before : ObjectStore) (key : String)
    (after : ObjectStore) : Prop where
  current : before.entries key = some view.entry
  landed : ∃ old asked, CsrLanded before key old asked after ∧
    asked["spec"] = view.entry.object["spec"] ∧
    (hasCondition view.entry.object "Denied" = false → hasCondition asked "Denied" = false)

theorem CsrView.answered {before final : ObjectStore}
    (remembered : before.Remembers (csrKey view.name) view.entry) (sends : Sends view.object body)
    (quiet : IssuanceState.asks caller (.putPart part body) before IssuanceState.undenied = true)
    (performed : (putPart part body).perform caller before = .ok (key, final)) :
    key = csrKey view.name ∧ view.Answered before key final := by
  have ⟨same, current⟩ := lands remembered sends.metadata performed
  have ⟨name, shown, old, asked, _, shows, _, admitted, landed⟩ := perform_ok performed
  have keyed : key = csrKey caller.name := by
    have ⟨_, _, done⟩ := bind_eq_ok.mp performed
    exact (congrArg Prod.fst (pure_eq_ok.mp done)).symm
  subst keyed
  obtain ⟨existing, rfl, _, spec, status⟩ := putPart_shown shows
  have ⟨entry, found, read⟩ := landed.read existing rfl
  cases some.inj (found.symm.trans current)
  refine ⟨same, current, _, asked, landed, ?_, fun undenied => ?_⟩
  · rw [CsrCaller.putPart_spec spec admitted, read.spec]
  · have ⟨sent, given⟩ := sends.status
    have shownDenied : hasCondition shown "Denied" = false := by
      rw [← undenied, ← view.same.hasCondition, ← sends.denied]
      unfold hasCondition
      rw [status sent given, index_eq body, given]
      rfl
    simpa [IssuanceState.asks, shows, admitted, IssuanceState.undenied, shownDenied] using quiet

section

variable (inv : IssuanceInvariant pki state)

include inv

/-- The controller's request keeps the invariant on a version nobody denied, if that is a kubelet's
or the controller found it approved. -/
theorem IssuanceInvariant.answer {issued : List Issued}
    (answered : view.Answered state.store (csrKey view.name) store)
    (undenied : hasCondition view.object "Denied" = false)
    (eligible : hasCondition view.object "Approved" = true ∨
      signerName view.object = KUBELET_CLIENT_SIGNER) (proper : ∀ one ∈ issued, one.Proper pki) :
    IssuanceInvariant pki { state with store := store, issued := issued } := by
  have ⟨old, asked, landed, spec, quiet⟩ := answered.landed
  have was := inv.stored view.name view.entry answered.current
  rw [view.same.hasCondition] at undenied eligible
  rw [view.same.signerName] at eligible
  apply inv.land landed (fun _ _ => rfl) ?_ proper
  intro entry _ same
  have signer : signerName entry.object = signerName view.entry.object := by
    unfold signerName
    rw [same.spec, spec]
  constructor
  · rw [signer, asksNode_congr (same.spec.trans spec)]
    exact was.node
  · intro _ alone
    rw [signer]
    exact eligible.elim (fun approved => was.alone approved alone) id
  · intro _
    rw [same.hasCondition]
    exact quiet undenied

theorem IssuanceInvariant.issues {pem : String}
    (current : state.store.entries (csrKey view.name) = some view.entry)
    (approved : hasCondition view.object "Approved" = true)
    (signs : signed pki ca view.object = some pem) :
    Issued.Proper pki ⟨view.entry.object, state.approvedByOthers (csrKey view.name), pem⟩ := by
  have was := inv.stored view.name view.entry current
  rw [view.same.hasCondition] at approved
  constructor
  · intro alone
    have node := was.node (was.alone approved alone)
    rw [← asksNode_congr view.same.spec] at node
    have ⟨encoded, asks, rest⟩ := bind_eq_some_iff.mp signs
    have ⟨request, decodes, signs⟩ := bind_eq_some_iff.mp rest
    rw [pki.exact request ca.1 ca.2 pem signs]
    simpa [asksNode, asks, decodes] using node
  · exact was.exclusive approved

theorem IssuanceState.pass_invariant {index : Nat}
    (safe : state.sound pki controller (.pass caller index) = true)
    (taken : state.step pki controller (.pass caller index) = some after) :
    IssuanceInvariant pki after := by
  have ⟨view, seen, carried⟩ := bind_eq_some_iff.mp taken
  have remembered := inv.views view (List.mem_of_getElem? seen)
  unfold sound at safe
  simp only [seen] at safe
  cases decided : controller.reconcile pki view.object with
  | leave =>
    rw [decided] at carried
    cases carried
  | approve body =>
    rw [decided] at carried safe
    have ⟨kubelet, undenied, sends⟩ := reconcile_approve decided
    have ⟨⟨key, store⟩, performed, done⟩ := bind_eq_some_iff.mp carried
    obtain ⟨rfl, answered⟩ := CsrView.answered remembered sends safe (toOption_eq_some.mp performed)
    cases done
    exact inv.answer answered undenied (.inr kubelet) inv.issued
  | issue body pem =>
    rw [decided] at carried safe
    have ⟨approved, ⟨ca, signs⟩, sends⟩ := reconcile_issue decided
    have ⟨⟨key, store⟩, performed, done⟩ := bind_eq_some_iff.mp carried
    obtain ⟨rfl, answered⟩ := CsrView.answered remembered sends safe (toOption_eq_some.mp performed)
    have proper := inv.issues answered.current approved signs
    cases done
    apply inv.answer answered _ (.inl approved)
    · rw [issue, answered.current]
      exact List.forall_mem_concat inv.issued proper
    · rw [view.same.hasCondition]
      exact proper.undenied

theorem IssuanceState.serve_invariant {name : String}
    (taken : state.step pki controller (.serve name) = some after) :
    IssuanceInvariant pki after := by
  have ⟨view, viewed, done⟩ := bind_eq_some_iff.mp taken
  have current : state.store.entries (csrKey view.name) = some view.entry := by
    unfold IssuanceState.view at viewed
    split at viewed
    · cases viewed
    · next entry found =>
      split at viewed
      · cases viewed
        exact found
      · cases viewed
  cases done
  exact ⟨List.forall_mem_concat inv.views (Remembers.of_read current), inv.stored, inv.issued⟩

theorem IssuanceState.step_invariant {action : IssuanceAction}
    (safe : state.sound pki controller action = true)
    (taken : state.step pki controller action = some after) : IssuanceInvariant pki after := by
  cases action with
  | write caller write => exact state.write_invariant inv safe taken
  | remove key =>
    cases taken
    exact ⟨fun view member => (inv.views view member).erase,
      fun name entry found => inv.stored name entry (erased_entries found), inv.issued⟩
  | serve name => exact state.serve_invariant inv taken
  | pass caller index => exact state.pass_invariant inv safe taken

end

/-- In a sound run what the controller approves alone gets a node's certificate, and no request that
is denied gets any. -/
theorem automatic_certificates_are_nodes (pki : Pki) (controller : CsrController)
    (store : ObjectStore) (approvedByOthers : String → Bool) (state : IssuanceState)
    (absent : ∀ name, store.entries (csrKey name) = none)
    (reached : Transition.Reaches (IssuanceState.step pki controller)
      (fun state action => state.sound pki controller action = true)
      ⟨store, [], approvedByOthers, []⟩ state) :
    ∀ issued ∈ state.issued, issued.Proper pki := by
  have start : IssuanceInvariant pki ⟨store, [], approvedByOthers, []⟩ := by
    refine ⟨by simp, fun name entry found => ?_, by simp⟩
    rw [absent name] at found
    cases found
  have inv := reached.invariant start fun before action next kept safe taken =>
    before.step_invariant kept safe taken
  exact inv.issued

end

/-- Requests written as `<organization>/<common name>`, and certificates as what was requested. -/
def plainSubject (text : String) : Subject :=
  match Text.splitOnce text '/' with
  | some (organization, commonName) => ⟨[organization], commonName⟩
  | none => ⟨[], text⟩

def plainPki : Pki where
  decode := some
  encode := id
  sign request _ _ := some request
  requested := plainSubject
  issued := plainSubject
  exact _ _ _ _ signs := by rw [Option.some.inj signs]

def clusterSigner : CsrController := ⟨some ("ca.crt", "ca.key"), []⟩

/-- The request `join` for a kubelet's client certificate. -/
def joinCsr (request : String) (conditions : List String) : Value := .object [
  ("metadata", .object [("name", .string "join")]),
  ("spec", .object [("request", .string request), ("signerName", .string KUBELET_CLIENT_SIGNER)]),
  ("status", .object [("conditions",
    .array (conditions.map fun kind => .object [("type", .string kind)]))])]

def joinCaller (username : String) (pathName : Option String) : CsrCaller where
  user := ⟨username, ["system:authenticated"]⟩
  rbac := none
  pathName := pathName
  name := "join"
  world := .quiet
  rules := settingsApi.rules
  codec := settingsCodec

def createJoin (request : String) : IssuanceAction :=
  .write (joinCaller "alice" none) (.create .quiet (joinCsr request []))

def passJoin (index : Nat) : IssuanceAction :=
  .pass (joinCaller "system:kube-controller-manager" (some "join")) index

/-- A request is created, approved by the controller and then signed by it. -/
def issueJoin (request : String) : List IssuanceAction :=
  [createJoin request, .serve "join", passJoin 0, .serve "join", passJoin 1]

def issuanceStart : IssuanceState := ⟨.empty, [], fun _ => false, []⟩

theorem automatic_certificates_are_nodes_joining : ∃ state,
    Transition.Reaches (IssuanceState.step plainPki clusterSigner)
      (fun state action => state.sound plainPki clusterSigner action = true) issuanceStart state ∧
    state.issued.length = 1 ∧ ∀ issued ∈ state.issued, issued.Proper plainPki := by
  refine Transition.exists_reaches_of (issueJoin "system:nodes/system:node:a")
    (fun state => state.issued.length == 1) (by decide +kernel) fun state reached one => ?_
  exact ⟨by simpa using one, automatic_certificates_are_nodes plainPki clusterSigner
    .empty (fun _ => false) state (fun _ => rfl) reached⟩

/-- A run from the empty store to a certificate that is not proper. -/
def Improper (actions : List IssuanceAction) (improper : Issued → Prop) : Prop :=
  ∃ state issued, Transition.run (IssuanceState.step plainPki clusterSigner) (fun _ _ => True)
      issuanceStart actions = some state ∧
    state.issued.getLast? = some issued ∧ improper issued

/-- Whoever may create requests gets a certificate for `system:masters` that nobody but the
controller approved; and a request that is denied too, when it was approved, is signed. -/
theorem automatic_certificate_for_masters :
    Improper (issueJoin "system:masters/admin") (fun issued =>
      issued.approvedByOthers = false ∧
        plainPki.issued issued.pem = ⟨["system:masters"], "admin"⟩ ∧ ¬ issued.Proper plainPki) ∧
    Improper [createJoin "system:nodes/system:node:a",
      .write (joinCaller "approver" (some "join"))
        (.putPart .approval (joinCsr "system:nodes/system:node:a" ["Approved", "Denied"])),
      .serve "join", passJoin 0] (fun issued =>
        hasCondition issued.csr "Denied" = true ∧ ¬ issued.Proper plainPki) := by
  refine ⟨⟨_, _, rfl, rfl, by decide, by decide, fun proper => ?_⟩,
    ⟨_, _, rfl, rfl, by decide, fun proper => ?_⟩⟩
  · exact absurd (proper.node (by decide)) (by decide)
  · exact absurd proper.undenied (by decide)

end Rustkube
