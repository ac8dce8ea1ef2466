import Credentials.Collaborators
import Credentials.Credential
import Credentials.Token

/-!
# Issuing credentials

A credential is issued under an active policy and signed with the current key. The first failure of
policy, key and validity, in this order, is the answer. Issuing itself writes nothing.
-/

namespace Credentials

structure IssueRequest where
  policyId : PolicyId
  /-- a version to issue under in place of the current one -/
  version : Option PolicyVersion
  subjectId : SubjectId
  claims : Json.Members
  deviceTag : Option String
  /-- an expiry in place of the policy's lifetime -/
  expiry : Option Instant
  notBefore : Option Instant

structure IssuedCredential where
  token : String
  hash : String
  credential : Credential

def IssuedCredential.json (i : IssuedCredential) : Json :=
  .ofMembers [("token", .string i.token), ("credentialHash", .string i.hash),
    ("issuedAt", i.credential.issuedAt.json), ("expiresAt", i.credential.expiresAt.json),
    ("policyHash", .string i.credential.policyHash), ("credential", i.credential.json)]

inductive IssuanceError where
  | policyNotFound (id : PolicyId)
  | policyInactive (id : PolicyId) (status : PolicyStatus)
  | noSigningKey
  | expiryNotAfter (expiry now : Instant)
  | expiryOverflows
  | notBeforePrecedes (start now : Instant)
  | notBeforeReaches (start expiry : Instant)
  | registry (cause : RegistryError)
  | keyService (cause : KeyServiceError)
  /-- the definition cannot be hashed -/
  | policy (cause : PolicyError)
  /-- the token cannot be put together -/
  | token (cause : TokenError)
  | canonicalization (cause : CanonicalizationError)
  | cancelled
deriving DecidableEq

namespace IssuanceError

def message : IssuanceError → String
  | .policyNotFound id => s!"policy not found: {id.name}"
  | .policyInactive id s => s!"policy {id.name} is {s.name}, not active"
  | .noSigningKey => "no active signing key configured"
  | .expiryNotAfter e now => s!"invalid expiry: {e.text} is not after issuance time {now.text}"
  | .expiryOverflows => "invalid expiry: default expiry overflows"
  | .notBeforePrecedes s now => s!"invalid notBefore: {s.text} precedes issuance time {now.text}"
  | .notBeforeReaches s e => s!"invalid notBefore: {s.text} is not before expiry {e.text}"
  | .registry cause => s!"policy registry error: {cause.message}"
  | .keyService cause => s!"key service error: {cause.message}"
  | .policy cause => s!"policy error: {cause.message}"
  | .token cause => s!"token error: {cause.message}"
  | .canonicalization cause => cause.message
  | .cancelled => Cancelled.mk.message

def ofRegistry : RegistryError → IssuanceError
  | .cancelled => .cancelled
  | e => .registry e

def ofKeyService : KeyServiceError → IssuanceError
  | .cancelled => .cancelled
  | e => .keyService e

/-- The code that a client is told, if there is one. -/
def reason? : IssuanceError → Option Reason
  | .policyNotFound _ => some .policyNotFound
  | .policyInactive _ _ => some .policyInactive
  | _ => none

def isClientError : IssuanceError → Bool
  | .policyNotFound _ => true
  | .policyInactive _ _ => true
  | .expiryNotAfter _ _ => true
  | .expiryOverflows => true
  | .notBeforePrecedes _ _ => true
  | .notBeforeReaches _ _ => true
  | _ => false

end IssuanceError

/-- The end of validity: the one asked for, or the lifetime from now on. -/
def IssueRequest.expiresAt (q : IssueRequest) (p : PolicyDefinition) (now : Instant) :
    Except IssuanceError Instant :=
  match q.expiry with
  | some e => if now < e then .ok e else .error (.expiryNotAfter e now)
  | none =>
    match now.add? p.lifetimeSecs with
    | some e => .ok e
    | none => .error .expiryOverflows

/-- Checks the start of validity against the time of issuance and the end. -/
def IssueRequest.checkStart (q : IssueRequest) (now expiry : Instant) : Except IssuanceError Unit :=
  match q.notBefore with
  | none => .ok ()
  | some s =>
    if s < now then .error (.notBeforePrecedes s now)
    else if expiry ≤ s then .error (.notBeforeReaches s expiry)
    else .ok ()

def IssueRequest.credential (q : IssueRequest) (id : CredentialId) (p : PolicyDefinition)
    (key : KeyId) (now expiry : Instant) : Credential :=
  { id
    policyId := p.id
    subjectId := q.subjectId
    claims := q.claims
    issuedAt := now
    expiresAt := expiry
    notBefore := q.notBefore
    keyId := key
    deviceTag := q.deviceTag
    policyHash := p.hash }

structure Issuer (W : Type) extends Surroundings W where
  policies : PolicyDirectory W
  keys : KeyDirectory W
  signer : Signer W

namespace Issuer

variable {W : Type}

def policy (i : Issuer W) (q : IssueRequest) : Step W IssuanceError PolicyDefinition := do
  let found ← i.guarded .cancelled ((i.policies q.policyId q.version).mapError .ofRegistry)
  match found with
  | none => throw (.policyNotFound q.policyId)
  | some p => if p.status = .active then return p else throw (.policyInactive p.id p.status)

def key (i : Issuer W) : Step W IssuanceError IssuerKey := do
  let found ← i.guarded .cancelled (i.keys.current.mapError .ofKeyService)
  match found with
  | none => throw .noSigningKey
  | some k => if k.isRetired then throw .noSigningKey else return k

def issue (i : Issuer W) (id : CredentialId) (q : IssueRequest) :
    Step W IssuanceError IssuedCredential := do
  i.check .cancelled
  let p ← i.policy q
  let k ← i.key
  let now ← i.time
  let expiry ← Step.ofExcept (q.expiresAt p now)
  Step.ofExcept (q.checkStart now expiry)
  let policyHash ← Step.ofExcept (p.tryHash.mapError .policy)
  let c := { q.credential id p k.id now expiry with policyHash := policyHash }
  let header := Token.headerFor k.id
  let payload := c.toPayload
  let input ← Step.ofExcept ((Token.trySigningInput header payload).mapError .token)
  let signature ← i.guarded .cancelled ((i.signer k.id input).mapError .ofKeyService)
  let token ← Step.ofExcept ((Token.tryEncode header payload signature).mapError .token)
  let hash ← Step.ofExcept (c.tryHash.mapError .canonicalization)
  return ⟨token, hash, c⟩

end Issuer
end Credentials
