import Rustkube.AdmittedObject
import Rustkube.Create
import Rustkube.ObjectWrite

namespace Rustkube

open Admission CsrAdmission ObjectStore Json Storage ObjectWrite

variable {object : Value}

namespace Admission

variable {request : RequestAttrs} {op : Operation} {old : Option Value}

/-- What comes out of an admission that runs went through the server's own rules after the last
mutating webhook. -/
theorem admit_settled {world : World} {admitted : Admitted}
    (made : verbMatches op request.verb = true) (names : named request (some object) old = true)
    (outside : exempt request.group = false)
    (ran : admitWrite world (some request) op (some object) old = .ok admitted) :
    ∃ current settled result, afterMutating request op old current = .ok settled ∧
      admitted.object = some result ∧ ∀ field, field ≠ "metadata" →
          result[field] = settled[field] := by
  obtain ⟨answer, result, -, isResult, settled, after, rfl | rfl⟩ :=
    admit_finished made names outside ran
  · exact ⟨answer, _, _, after, isResult, fun _ _ => rfl⟩
  · exact ⟨answer, settled, _, after, isResult, fun _ other => keepIdentity_index _ _ other⟩

theorem afterMutating_csr {current settled : Value} (group : request.group = GROUP)
    (resource : request.resource = RESOURCE)
    (after : afterMutating request op old current = .ok settled) :
    CsrAdmission.admitWrite request op current old = .ok settled := by
  have ⟨csr, admits, rest⟩ := bind_eq_ok.mp after
  have ⟨_, _, done⟩ := bind_eq_ok.mp rest
  rw [← pure_eq_ok.mp done]
  have other : request.group ≠ Requester.GROUP := by rw [group]; decide
  have unstamped : stampRequester request op old current = current := if_neg other
  rwa [admitCsr, if_pos ⟨group, resource⟩, unstamped] at admits

end Admission

namespace CsrAdmission

/-- A condition of that type, whatever its status. -/
def hasCondition (csr : Value) (kind : String) : Bool :=
  match csr["status"]["conditions"].asArray? with
  | some conditions => conditions.any fun condition => condition["type"].asStr? == some kind
  | none => false

/-- The requester may `verb` requests for the signer. Without RBAC everybody may. -/
def authorized (request : RequestAttrs) (verb signer : String) : Bool :=
  match request.rbac with
  | none => true
  | some engine => mayUse engine request.user verb signer

theorem require_ok {engine : Engine} {user : User} {verb signer : String}
    (passed : require engine user verb signer = .ok ()) :
    mayUse engine user verb signer = true := by
  unfold require at passed
  split_ifs at passed with may
  · exact may
  · simp at passed

theorem stamp_index (user : User) {spec : Value} (shape : spec.isObject = true) :
    (stamp user spec)["username"] = .string user.username ∧
      (stamp user spec)["groups"] = .array (user.groups.map .string) := by
  unfold stamp
  have named : (spec.insert "username" (.string user.username)).isObject = true := by
    rwa [Value.isObject_insert]
  constructor
  · rw [Value.index_remove_of_ne (by decide), Value.index_remove_of_ne (by decide),
      Value.index_insert_of_ne (by decide), Value.index_insert_self shape]
  · rw [Value.index_remove_of_ne (by decide), Value.index_remove_of_ne (by decide),
      Value.index_insert_self named]

theorem onCreate_ok {user : User} {after : Value} (admitted : onCreate user object = .ok after) :
    after["spec"]["username"] = .string user.username ∧
      after["spec"]["groups"] = .array (user.groups.map .string) ∧
      after["status"] = object["status"] := by
  have ⟨opened, first, rest⟩ := bind_eq_ok.mp admitted
  have shape : opened["spec"].isObject = true ∧ opened["status"] = object["status"] := by
    have opens := orPanic_eq_ok.mp first
    unfold openSpec at opens
    split_ifs at opens with already
    · cases opens
      exact ⟨already, rfl⟩
    · refine ⟨?_, Value.assign_of_ne opens (by decide)⟩
      rw [Value.assign_self opens]
      rfl
  dsimp only at rest
  split_ifs at rest with narrowed
  · simp at rest
  · rw [← pure_eq_ok.mp rest, Value.index_insert_self (Value.isObject_of_index shape.1),
      Value.index_insert_of_ne (by decide)]
    exact ⟨(stamp_index user shape.1).1, (stamp_index user shape.1).2, shape.2⟩

theorem keepCertificate_ok {stored after : Value}
    (kept : keepCertificate object stored = some after) :
    certificate after = certificate stored ∧ after["spec"] = object["spec"] := by
  unfold keepCertificate at kept
  unfold certificate
  cases found : stored["status"].get? "certificate" with
  | some issued =>
    rw [found] at kept
    refine ⟨?_, Value.assignIn_of_ne kept (by decide)⟩
    rw [Value.assignIn_self kept, Value.index_eq stored["status"], found]
    rfl
  | none =>
    rw [found] at kept
    refine ⟨?_, Value.assign_of_ne kept (by decide)⟩
    rw [Value.assign_self kept, Value.index_remove_self, Value.index_eq stored["status"], found]
    rfl

theorem keepStored_ok {sub : Option String} {stored after : Value}
    (kept : keepStored sub object stored = some after) :
    after["spec"] = stored["spec"] ∧ (sub = none → after["status"] = stored["status"]) ∧
      (sub = some "approval" → certificate after = certificate stored) := by
  have ⟨written, first, rest⟩ := Option.bind_eq_some_iff.mp kept
  have spec := Value.assign_self first
  cases sub with
  | none =>
    exact ⟨(Value.assign_of_ne rest (by decide)).trans spec,
      fun _ => Value.assign_self rest, by simp⟩
  | some sub =>
    dsimp only at rest
    split_ifs at rest with approval
    · have certified := keepCertificate_ok rest
      exact ⟨certified.2.trans spec, by simp, fun _ => certified.1⟩
    · cases rest
      exact ⟨spec, by simp, fun same => absurd (Option.some.inj same) approval⟩

theorem permit_ok {request : RequestAttrs} {stored : Value}
    (permitted : permit request object stored = .ok ()) : (request.subresource = some "approval" →
      authorized request "approve" (signerName stored) = true) ∧
    (request.subresource = some "status" → certificate object = certificate stored ∨
      authorized request "sign" (signerName stored) = true) := by
  unfold permit at permitted
  unfold authorized
  cases rbac : request.rbac with
  | none => simp
  | some engine =>
    simp only [rbac] at permitted ⊢
    split_ifs at permitted with approval signing
    · exact ⟨fun _ => require_ok permitted, by simp [approval]⟩
    · exact ⟨fun same => absurd same approval, fun _ => .inr (require_ok permitted)⟩
    · refine ⟨fun same => absurd same approval, fun status => .inl ?_⟩
      by_contra differs
      exact signing ⟨status, differs⟩

end CsrAdmission

inductive CsrSubresource where
  | approval
  | status
deriving DecidableEq

def CsrSubresource.text : CsrSubresource → String
  | .approval => "approval"
  | .status => "status"

/-- A write to CertificateSigningRequests. `apply` is that of a PATCH which finds nothing stored. -/
inductive CsrWrite where
  | create (given : Creation) (body : Value)
  | apply (given : Creation) (params : Apply.Params) (body : Bytes)
  | put (body : Value)
  | patch (contentType : String) (params : Apply.Params) (body : Bytes)
  | putPart (part : CsrSubresource) (body : Value)
  | patchPart (part : CsrSubresource) (contentType : String) (body : Bytes)

namespace CsrWrite

def verb : CsrWrite → Verb
  | .create .. => .create
  | .put .. | .putPart .. => .update
  | .apply .. | .patch .. | .patchPart .. => .patch

def part : CsrWrite → Option CsrSubresource
  | .putPart part _ => some part
  | .patchPart part _ _ => some part
  | _ => none

end CsrWrite

/-- Who makes a write, and what it meets. `pathName` is the name as the path spells it, `name` as
the handler gets it: percent-decoded. A POST has no name in its path. -/
structure CsrCaller where
  user : User
  rbac : Option Engine
  pathName : Option String
  name : String
  world : Admission.World
  rules : KindRules
  codec : Patch.Codec

def csrKey (name : String) : String := clusterKey CsrAdmission.RESOURCE name

namespace CsrCaller

variable (caller : CsrCaller) (write : CsrWrite)

/-- The request as the RBAC middleware reads it off the path. -/
def request : RequestAttrs where
  user := caller.user
  verb := write.verb
  group := CsrAdmission.GROUP
  version := "v1"
  resource := CsrAdmission.RESOURCE
  subresource := write.part.map CsrSubresource.text
  ns := none
  name := caller.pathName
  dryRun := false
  rbac := caller.rbac

def api : Api := ⟨some (caller.request write), caller.world, caller.rules⟩

end CsrCaller

namespace CsrWrite

/-- The handler: a create, or a write to a stored object. -/
def handler (name : String) : CsrWrite → (Creation × CreateRequest) ⊕ ObjectWrite
  | .create given body => .inl (given, .post CsrAdmission.RESOURCE none body)
  | .apply given params body => .inl (given,
      .apply CsrAdmission.RESOURCE CsrAdmission.RESOURCE name none .builtIn params body)
  | .put body => .inr (.put .builtIn body)
  | .patch contentType params body => .inr (.patch .builtIn contentType params body)
  | .putPart _ body => .inr (.putStatus body)
  | .patchPart _ contentType body => .inr (.patchStatus contentType body)

/-- The key written, and the store after it. -/
def perform (caller : CsrCaller) (write : CsrWrite) (store : ObjectStore) :
    Except Failure (String × ObjectStore) :=
  match write.handler caller.name with
  | .inl (given, request) => request.perform (caller.api write) caller.codec given store
  | .inr change => do
    let after ← change.perform (caller.api write) caller.codec (csrKey caller.name) caller.name none
      store
    pure (csrKey caller.name, after)

def op (write : CsrWrite) : Operation :=
  match write.handler "" with
  | .inl _ => .create
  | .inr _ => .update

/-- The object the write shows the webhooks, and the stored one it replaces. -/
def shown (caller : CsrCaller) (write : CsrWrite) (store : ObjectStore) :
    Except Failure (Value × Option Value) :=
  match write.handler caller.name with
  | .inl (given, request) => do
    let (name, draft) ← request.draft caller.codec given.suffix
    let obj ← request.builtin (caller.api write) given
      (ensureMetadata given.uid given.now draft name none)
    pure (obj, none)
  | .inr change => do
    let existing ← store.get (csrKey caller.name)
    let obj ← change.shown (caller.api write) caller.codec (csrKey caller.name) caller.name none
      existing
    pure (obj, some existing)

end CsrWrite

/-- The same request in the same state; `metadata` may differ. -/
structure SameCsr (first second : Value) : Prop where
  spec : first["spec"] = second["spec"]
  status : first["status"] = second["status"]

namespace SameCsr

variable {first second third : Value}

theorem trans (left : SameCsr first second) (right : SameCsr second third) : SameCsr first third :=
  ⟨left.spec.trans right.spec, left.status.trans right.status⟩

theorem of_index (same : ∀ field, field ≠ "metadata" → first[field] = second[field]) :
    SameCsr first second :=
  ⟨same "spec" (by decide), same "status" (by decide)⟩

variable (same : SameCsr first second)

include same

theorem hasCondition (kind : String) :
    CsrAdmission.hasCondition first kind = CsrAdmission.hasCondition second kind := by
  unfold CsrAdmission.hasCondition
  rw [same.status]

theorem certificate : CsrAdmission.certificate first = CsrAdmission.certificate second := by
  unfold CsrAdmission.certificate
  rw [same.status]

theorem signerName : CsrAdmission.signerName first = CsrAdmission.signerName second := by
  unfold CsrAdmission.signerName
  rw [same.spec]

end SameCsr

theorem storedForm_csr (canonical : Value → String) (name : String) (csr : Value) :
    SameCsr (storedForm canonical (metricResource (csrKey name)) csr) csr := by
  have resource : metricResource (csrKey name) = RESOURCE :=
    metricResource_key name (by decide) (by decide) (by decide)
  have plain : Quantity.numbersToStrings canonical RESOURCE csr = csr := if_neg (by decide)
  apply SameCsr.of_index
  intro field outside
  rw [storedForm, resource, plain]
  exact (Value.Within.of_removeIn csr "metadata" "resourceVersion").outside field outside

variable {given : Creation}

/-- What the end of a create still does is within `metadata`. -/
theorem newObject_asked {api : Api} {ns : Option String} {name : String}
    {builtin finish : Value → Except Failure Value} {draft obj : Value}
    (created : newObject api given ns name builtin finish draft = .ok obj)
    (finishes : ∀ before after, finish before = .ok after →
      ∀ field, field ≠ "metadata" → after[field] = before[field]) :
    ∃ sent asked, builtin (ensureMetadata given.uid given.now draft name ns) = .ok sent ∧
      api.admitWrite .create sent none = .ok asked ∧ SameCsr obj asked := by
  have ⟨sent, first, rest⟩ := bind_eq_ok.mp created
  have ⟨asked, second, last⟩ := bind_eq_ok.mp rest
  refine ⟨sent, asked, first, second, SameCsr.of_index fun field outside => ?_⟩
  rw [finishes _ obj last field outside, ensureMetadata_index asked outside]

/-- What a write did to the store. `old` is what it read under the key, if anything was there, and
`asked` what it asked to store. -/
structure CsrLanded (store : ObjectStore) (key : String) (old : Option Value) (asked : Value)
    (after : ObjectStore) : Prop where
  read : ∀ existing, old = some existing → ∃ entry, store.entries key = some entry ∧
    SameCsr existing entry.object
  created : old = none → store.entries key = none
  written : after = store.erase key ∨ ∃ csr, after = store.write key csr ∧ SameCsr csr asked

variable {old : Option Value} {asked : Value} {entry : Entry}

theorem CsrLanded.stored {store after : ObjectStore} {key other : String}
    (landed : CsrLanded store key old asked after)
    (found : after.entries other = some entry) : (other ≠ key ∧ store.entries other = some entry) ∨
      (other = key ∧ SameCsr entry.object asked) := by
  rcases landed.written with rfl | ⟨csr, rfl, same⟩
  · refine .inl ⟨fun equal => ?_, erased_entries found⟩
    rw [equal, erase_entries_self] at found
    cases found
  · by_cases equal : other = key
    · rw [equal, write_entries_self] at found
      cases Option.some.inj found
      exact .inr ⟨equal, same⟩
    · rw [write_entries_of_ne _ _ _ equal] at found
      exact .inl ⟨equal, found⟩

theorem CsrLanded.remembers {store after : ObjectStore} {key other : String}
    (landed : CsrLanded store key old asked after)
    (remembered : store.Remembers other entry) : after.Remembers other entry := by
  rcases landed.written with rfl | ⟨csr, rfl, _⟩
  · exact remembered.erase
  · exact remembered.write csr

namespace CsrWrite

variable {caller : CsrCaller} {write : CsrWrite} {store after : ObjectStore} {key : String}
  {request : CreateRequest}

section

variable (created : write.handler caller.name = .inl (given, request))

include created

/-- The create of a CertificateSigningRequest, by a POST or by an apply, stores what admission
gave back. -/
theorem object_asked {name : String} {draft obj : Value}
    (made : request.object (caller.api write) given name draft = .ok obj) :
    request.key name = csrKey name ∧ ∃ sent asked,
      request.builtin (caller.api write) given
        (ensureMetadata given.uid given.now draft name none) = .ok sent ∧
      (caller.api write).admitWrite .create sent none = .ok asked ∧ SameCsr obj asked := by
  cases write with
  | create given' body =>
    cases created
    rw [CreateRequest.object, createResource] at made
    refine ⟨rfl, newObject_asked made fun before after finished field outside => ?_⟩
    rw [← pure_eq_ok.mp finished]
    exact Generation.onCreate_index _ before outside
  | apply given' params body =>
    cases created
    refine ⟨rfl, newObject_asked made fun before after finished field outside => ?_⟩
    have counted : Generation.onCreate RESOURCE before = after := pure_eq_ok.mp finished
    rw [← counted]
    exact Generation.onCreate_index _ before outside
  | _ => cases created

theorem create_ok
    (performed : request.perform (caller.api write) caller.codec given store = .ok (key, after)) :
    ∃ name sent asked, key = csrKey name ∧ write.shown caller store = .ok (sent, none) ∧
      (caller.api write).admitWrite .create sent none = .ok asked ∧
      CsrLanded store key none asked after := by
  have ⟨name, draft, obj, drafted, made, keyed, absent, written⟩ :=
    CreateRequest.perform_ok performed
  have ⟨named, sent, asked, built, admitted, same⟩ := object_asked created made
  have shows : write.shown caller store = .ok (sent, none) := by
    unfold shown
    rw [created]
    exact bind_eq_ok.mpr ⟨(name, draft), drafted, bind_eq_ok.mpr ⟨sent, built, rfl⟩⟩
  rw [keyed, named] at absent written ⊢
  refine ⟨name, sent, asked, rfl, shows, admitted, by simp, fun _ => absent, .inr ?_⟩
  exact ⟨_, written, (storedForm_csr _ name obj).trans same⟩

end

/-- A write to a stored request stores or removes what admission gave back. -/
theorem change_ok {change : ObjectWrite} (changed : write.handler caller.name = .inr change)
    (performed : change.perform (caller.api write) caller.codec (csrKey caller.name) caller.name
      none store = .ok after) :
    ∃ shown existing asked, write.shown caller store = .ok (shown, some existing) ∧
      (caller.api write).admitWrite .update shown (some existing) = .ok asked ∧
      CsrLanded store (csrKey caller.name) (some existing) asked after := by
  have ⟨existing, commit, read, prepared, landed⟩ := perform_ok performed
  obtain ⟨asked, obj, asks, finished, rfl⟩ := prepare_ok prepared
  have ⟨sent, sends, admitted⟩ := bind_eq_ok.mp asks
  have ⟨entry, found, injected⟩ := get_ok read
  have shows : write.shown caller store = .ok (sent, some existing) := by
    unfold shown
    rw [changed]
    exact bind_eq_ok.mpr ⟨existing, read, bind_eq_ok.mpr ⟨sent, sends, rfl⟩⟩
  have builtIn : change.builtIn = true := by
    cases write with
    | create | apply => cases changed
    | _ =>
      cases changed
      rfl
  have same : SameCsr obj asked :=
    ⟨finish_index finished builtIn (by decide) (by decide) (by decide),
      finish_index finished builtIn (by decide) (by decide) (by decide)⟩
  refine ⟨sent, existing, asked, shows, admitted, ?_, by simp, ?_⟩
  · intro other equal
    cases equal
    exact ⟨entry, found, SameCsr.of_index (injectResourceVersion_within injected).outside⟩
  · rw [persistOrFinalize_land landed (by simp [found])]
    split_ifs with finalized
    · exact .inl rfl
    · exact .inr ⟨_, rfl, (storedForm_csr _ caller.name obj).trans same⟩

theorem perform_ok (performed : write.perform caller store = .ok (key, after)) :
    ∃ name shown old asked, key = csrKey name ∧ write.shown caller store = .ok (shown, old) ∧
      (write.op = .create ∧ old = none ∨ write.op = .update ∧ old.isSome = true) ∧
      (caller.api write).admitWrite write.op shown old = .ok asked ∧
      CsrLanded store key old asked after := by
  unfold perform at performed
  cases handled : write.handler caller.name with
  | inl creation =>
    rw [handled] at performed
    have ⟨name, sent, asked, keyed, shows, admitted, landed⟩ := create_ok handled performed
    have creates : write.op = .create := by
      cases write <;> first | rfl | cases handled
    rw [creates]
    exact ⟨name, sent, none, asked, keyed, shows, .inl ⟨rfl, rfl⟩, admitted, landed⟩
  | inr change =>
    rw [handled] at performed
    have ⟨final, changed, done⟩ := bind_eq_ok.mp performed
    cases pure_eq_ok.mp done
    have ⟨sent, existing, asked, shows, admitted, landed⟩ := change_ok handled changed
    have updates : write.op = .update := by
      cases write <;> first | rfl | cases handled
    rw [updates]
    exact ⟨caller.name, sent, some existing, asked, rfl, shows, .inr ⟨rfl, rfl⟩, admitted, landed⟩

end CsrWrite

variable {caller : CsrCaller} {write : CsrWrite} {shown asked : Value}

theorem CsrCaller.admit_csr (names : named (caller.request write) (some shown) old = true)
    (admitted : (caller.api write).admitWrite write.op shown old = .ok asked) :
    ∃ current settled, CsrAdmission.admitWrite (caller.request write) write.op current old =
      .ok settled ∧ SameCsr asked settled := by
  have ⟨result, ran, done⟩ := bind_eq_ok.mp admitted
  have made : verbMatches write.op (caller.request write).verb = true := by
    cases write <;> rfl
  have ⟨current, settled, object, after, isObject, same⟩ :=
    admit_settled made names (show exempt GROUP = false by decide) ran
  refine ⟨current, settled, afterMutating_csr rfl rfl after, ?_⟩
  rw [← pure_eq_ok.mp done, isObject]
  exact SameCsr.of_index same

theorem CsrCaller.create_stamped
    (names : named (caller.request write) (some shown) none = true)
    (creates : write.op = .create)
    (admitted : (caller.api write).admitWrite write.op shown none = .ok asked) :
    asked["spec"]["username"] = .string caller.user.username ∧
      asked["spec"]["groups"] = .array (caller.user.groups.map .string) := by
  have ⟨current, settled, ran, same⟩ := caller.admit_csr names admitted
  have main : (caller.request write).subresource = none := by
    cases write <;> first | rfl | cases creates
  rw [creates] at ran
  simp only [CsrAdmission.admitWrite, main] at ran
  have stamped := onCreate_ok ran
  rw [same.spec]
  exact ⟨stamped.1, stamped.2.1⟩

/-- What an update that was admitted leaves alone, and what it was allowed. -/
structure CsrUpdate (request : RequestAttrs) (stored asked : Value) : Prop where
  spec : asked["spec"] = stored["spec"]
  main : request.subresource = none → asked["status"] = stored["status"]
  approval : request.subresource = some "approval" → certificate asked = certificate stored ∧
    authorized request "approve" (signerName stored) = true
  status : request.subresource = some "status" → certificate asked = certificate stored ∨
    authorized request "sign" (signerName stored) = true

theorem CsrCaller.update_kept {stored : Value}
    (names : named (caller.request write) (some shown) (some stored) = true)
    (updates : write.op = .update)
    (admitted : (caller.api write).admitWrite write.op shown (some stored) = .ok asked) :
    CsrUpdate (caller.request write) stored asked := by
  have ⟨current, settled, ran, same⟩ := caller.admit_csr names admitted
  rw [updates] at ran
  have ⟨kept, keeps, rest⟩ := bind_eq_ok.mp ran
  have ⟨_, permitted, done⟩ := bind_eq_ok.mp rest
  rw [← pure_eq_ok.mp done] at same
  have facts := keepStored_ok (orPanic_eq_ok.mp keeps)
  have permits := permit_ok permitted
  constructor
  · rw [same.spec, facts.1]
  · intro main
    rw [same.status, facts.2.1 main]
  · intro approval
    rw [same.certificate, facts.2.2 approval]
    exact ⟨rfl, permits.1 approval⟩
  · intro status
    rw [same.certificate]
    exact permits.2 status

end Rustkube
