import Credentials.Collaborators
import Credentials.Credential
import Credentials.Time.Seconds
import Credentials.Token

/-!
# Validating tokens

Validation is a sequence of checks: structure, key, signature, times, content, and the bond to a
policy. The first that fails gives the reason, and none runs after it. A collaborator's failure never
lets a token pass, and only cancellation is an error.
-/

namespace Credentials

structure Validation where
  reason : Reason
  message : Option String
  keyId : Option KeyId
  credential : Option Credential
  time : Instant

namespace Validation

def isValid (v : Validation) : Bool := v.reason = .valid

def json (v : Validation) : Json :=
  .ofMembers ([("valid", .bool v.isValid), ("reason", v.reason.json),
      ("timestampUtc", v.time.json)]
    ++ Json.optionalOf "message" .string v.message
    ++ Json.optionalOf "keyId" KeyId.json v.keyId
    ++ Json.optionalOf "credential" Credential.json v.credential)

end Validation

/-- Why a token is turned away: a reason, words for it, and the key once it is known. -/
structure Refusal where
  reason : Reason
  message : String
  keyId : Option KeyId
deriving DecidableEq

/-- A check that ends early: with a refusal, or because the run was cancelled. -/
inductive Stop where
  | refused (refusal : Refusal)
  | cancelled
deriving DecidableEq

namespace Stop

def because (reason : Reason) (message : String) (key : KeyId) : Stop :=
  .refused ⟨reason, message, some key⟩

/-- A failed look-up of a key refuses the token, unless it was cancelled. -/
def ofKeyService (key : KeyId) : KeyServiceError → Stop
  | .cancelled => .cancelled
  | _ => because .internalError "internal error" key

def ofRegistry (key : KeyId) : RegistryError → Stop
  | .cancelled => .cancelled
  | _ => because .internalError "internal error" key

def ofClaim (key : KeyId) : ClaimProblem → Stop
  | .missing _ => because .missingRequiredClaim "missing required claim" key
  | .invalid _ => because .malformedToken "malformed token" key

end Stop

/-- The difference between clock and issuance that is allowed unless set otherwise, in seconds. -/
def defaultSkew : Nat := 300

structure Validator (W : Type) extends Surroundings W where
  keys : KeyDirectory W
  /-- with policies, credentials are checked against them -/
  policies : Option (PolicyDirectory W)
  /-- the difference allowed between the clock and the time of issuance, in seconds -/
  skew : Nat

namespace Validator

variable {W : Type}

/-- The token with the key that it names. -/
def named (s : String) : Except Stop (Token × KeyId) :=
  match Token.decode s with
  | .error _ => .error (.refused ⟨.malformedToken, "malformed token", none⟩)
  | .ok t =>
    match t.keyId? with
    | none => .error (.refused ⟨.missingRequiredClaim, "missing key id", none⟩)
    | some k => .ok (t, k)

/-- The registered key; a retired key is refused before any signature is looked at. -/
def key (v : Validator W) (id : KeyId) : Step W Stop IssuerKey := do
  let found ← v.guarded .cancelled ((v.keys.find id).mapError (.ofKeyService id))
  match found with
  | none => throw (.because .unknownKey "unknown signing key" id)
  | some k =>
    if k.isRetired then throw (.because .retiredKeyUsed "signing key retired" id) else return k

structure Times where
  issuedAt : Instant
  expiresAt : Instant
  notBefore : Option Instant

def times (payload : Json.Members) : Except ClaimProblem Times := do
  let issuedAt ← Claim.requiredInstant payload "iat"
  let expiresAt ← Claim.requiredInstant payload "exp"
  let notBefore ← Claim.optionalInstant payload "nbf"
  return ⟨issuedAt, expiresAt, notBefore⟩

def checkTimes (skew : Nat) (now : Instant) (id : KeyId) (t : Times) : Except Stop Unit :=
  if Seconds.ofNat skew < Seconds.magnitude (Seconds.since now t.issuedAt) then
    .error (.because .clockSkewExceeded "clock skew exceeded" id)
  else if t.notBefore.any (now < ·) then
    .error (.because .notYetValid "credential not yet valid" id)
  else if t.expiresAt ≤ now then .error (.because .expired "credential expired" id)
  else .ok ()

/-- The credential in a token, if key, signature, times and content are right. -/
def content (skew : Nat) (now : Instant) (t : Token) (k : IssuerKey) (id : KeyId) :
    Except Stop Credential :=
  if !t.isSignedBy k.publicKey then .error (.because .invalidSignature "invalid signature" id)
  else do
    checkTimes skew now id (← (times t.payload).mapError (.ofClaim id))
    (Credential.ofPayload t.payload id).mapError (.ofClaim id)

/-- Looks versions of a policy up, leaving out those that are not there. -/
def versions (v : Validator W) (policies : PolicyDirectory W) (id : KeyId) (p : PolicyId) :
    List PolicyVersion → Step W Stop (List PolicyDefinition)
  | [] => pure []
  | n :: r => do
    let found ← v.guarded .cancelled ((policies p (some n)).mapError (.ofRegistry id))
    let rest ← versions v policies id p r
    return found.toList ++ rest

def isBound (hash : String) (candidates : List PolicyDefinition) : Bool :=
  candidates.any fun d => d.status ≠ .retired && d.hasHash hash

/-- Checks the hash of a credential against the current version of its policy and the versions
compatible with that one. -/
def bind (v : Validator W) (policies : PolicyDirectory W) (id : KeyId) (c : Credential) :
    Step W Stop Unit := do
  let current ← v.guarded .cancelled ((policies c.policyId none).mapError (.ofRegistry id))
  match current with
  | none => throw (.because .policyNotFound "policy not found" id)
  | some p =>
    let others ← v.versions policies id c.policyId p.compatible
    if isBound c.policyHash (others ++ [p]) then return ()
    else throw (.because .policyHashMismatch "policy hash mismatch" id)

/-- The credential in a token that passes every check, and the key it names. -/
def run (v : Validator W) (token : String) (now : Instant) : Step W Stop (KeyId × Credential) := do
  let (t, id) ← Step.ofExcept (named token)
  let k ← v.key id
  let c ← Step.ofExcept (content v.skew now t k id)
  match v.policies with
  | none => return (id, c)
  | some policies => do
    v.bind policies id c
    return (id, c)

def validate (v : Validator W) (token : String) : Step W Cancelled Validation := do
  v.check .mk
  let now ← v.time
  fun w =>
    match v.run token now w with
    | (.ok (id, c), w) => (.ok ⟨.valid, none, some id, some c, now⟩, w)
    | (.error (.refused r), w) => (.ok ⟨r.reason, some r.message, r.keyId, none, now⟩, w)
    | (.error .cancelled, w) => (.error .mk, w)

end Validator
end Credentials
