import Rustkube.Request

namespace Rustkube.CsrAdmission

open Json

def GROUP : String := "certificates.k8s.io"

def RESOURCE : String := "certificatesigningrequests"

/-- The signer a bootstrapper may ask. -/
def FORGE_NODE_SIGNER : String := "storm.io/forge-node"

def isBootstrapper (user : User) : Bool :=
  user.groups.contains "system:bootstrappers" && !user.groups.contains "system:masters"

def signerName (csr : Value) : String := csr["spec"]["signerName"].asStr?.getD ""

def openSpec (object : Value) : Option Value :=
  if object["spec"].isObject then some object else object.assign "spec" (.object [])

/-- `spec.username` and `spec.groups` are the requester's; `uid` and `extra` are dropped. -/
def stamp (user : User) (spec : Value) : Value :=
  (((spec.insert "username" (.string user.username)).insert "groups"
    (.array (user.groups.map .string))).remove "uid").remove "extra"

/-- The requester stamp, and the bootstrapper's signer narrowing. The rest of the body, its
`status` included, is taken as it came. -/
def onCreate (user : User) (object : Value) : Except Failure Value := do
  let object ← orPanic (openSpec object)
  let signer := signerName object
  if isBootstrapper user && signer != FORGE_NODE_SIGNER then
    refuse .forbidden ("certificatesigningrequests is forbidden: User \"" ++ user.username ++
      "\" may only request signerName \"" ++ FORGE_NODE_SIGNER ++ "\", not \"" ++ signer ++ "\"")
  else pure (object.insert "spec" (stamp user object["spec"]))

/-- An approval keeps the certificate. -/
def keepCertificate (object stored : Value) : Option Value :=
  match stored["status"].get? "certificate" with
  | some certificate => object.assignIn "status" "certificate" certificate
  | none => object.assign "status" (object["status"].remove "certificate")

/-- What an update may not change. -/
def keepStored (sub : Option String) (object stored : Value) : Option Value := do
  let object ← object.assign "spec" stored["spec"]
  match sub with
  | none => object.assign "status" stored["status"]
  | some sub => if sub = "approval" then keepCertificate object stored else some object

/-- The names `verb` on `signers` is asked for: the signer, and `<domain>/*`. -/
def signerNames (signer : String) : List String :=
  match Text.splitOnce signer '/' with
  | some (domain, _) => [signer, domain ++ "/*"]
  | none => [signer]

def mayUse (engine : Engine) (user : User) (verb signer : String) : Bool :=
  (signerNames signer).any fun name => engine.authorize user
    { verb, resource := "signers", subresource := none, apiGroup := GROUP, ns := none,
      name := some name }

/-- `verb` (`approve` or `sign`) on `signers`, by the signer's name or its domain's. -/
def require (engine : Engine) (user : User) (verb signer : String) : Except Failure Unit :=
  if mayUse engine user verb signer then pure ()
  else refuse .forbidden ("user not permitted to " ++ verb ++ " requests with signerName \"" ++
    signer ++ "\" (User \"" ++ user.username ++ "\")")

def certificate (csr : Value) : Value := csr["status"]["certificate"]

/-- What an update needs of RBAC. Without RBAC it needs nothing. -/
def permit (request : RequestAttrs) (object stored : Value) : Except Failure Unit :=
  match request.rbac with
  | none => pure ()
  | some engine =>
    if request.subresource = some "approval" then
      require engine request.user "approve" (signerName stored)
    else if request.subresource = some "status" ∧ certificate object ≠ certificate stored then
      require engine request.user "sign" (signerName stored)
    else pure ()

/-- Admission for a CSR write, after the mutating webhooks. -/
def admitWrite (request : RequestAttrs) (op : Operation) (object : Value) (old : Option Value) :
    Except Failure Value :=
  match op, request.subresource, old with
  | .create, none, _ => onCreate request.user object
  | .update, sub, some stored => do
    let object ← orPanic (keepStored sub object stored)
    permit request object stored
    pure object
  | _, _, _ => pure object

end Rustkube.CsrAdmission
