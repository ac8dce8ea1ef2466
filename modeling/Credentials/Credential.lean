import Credentials.Policy.Definition

/-!
# Credentials

A credential says that a subject satisfies a policy. It travels as the payload of a token; its hash
covers only what cannot be denied: who, under which policy, and when.
-/

namespace Credentials

open Json (Written Record)

structure Credential where
  id : CredentialId
  policyId : PolicyId
  subjectId : SubjectId
  claims : Json.Members
  issuedAt : Instant
  expiresAt : Instant
  notBefore : Option Instant
  keyId : KeyId
  deviceTag : Option String
  policyHash : String

inductive ClaimProblem where
  | missing (claim : String)
  | invalid (claim : String)
deriving DecidableEq

namespace ClaimProblem

def message : ClaimProblem → String
  | .missing c => s!"missing required claim: {c}"
  | .invalid c => s!"invalid claim: {c}"

end ClaimProblem

namespace Claim

/-- A claim that is not null; null counts as absence. -/
def present? (payload : Json.Members) (claim : String) : Option Json :=
  (Json.get? payload claim).filter fun v => !v.isNull

def requiredText (payload : Json.Members) (claim : String) : Except ClaimProblem String :=
  match present? payload claim with
  | none => .error (.missing claim)
  | some (.string s) => .ok s
  | some _ => .error (.invalid claim)

def optionalText (payload : Json.Members) (claim : String) : Except ClaimProblem (Option String) :=
  match present? payload claim with
  | none => .ok none
  | some (.string s) => .ok (some s)
  | some _ => .error (.invalid claim)

def instant? : Json → Option Instant
  | .number l => (Decimal.signed? l).bind Instant.ofEpoch?
  | _ => none

def optionalInstant (payload : Json.Members) (claim : String) :
    Except ClaimProblem (Option Instant) :=
  match present? payload claim with
  | none => .ok none
  | some v =>
    match instant? v with
    | some t => .ok (some t)
    | none => .error (.invalid claim)

def requiredInstant (payload : Json.Members) (claim : String) : Except ClaimProblem Instant :=
  match optionalInstant payload claim with
  | .ok (some t) => .ok t
  | .ok none => .error (.missing claim)
  | .error e => .error e

/-- The attributes, which have to be an object; here null is not absence. -/
def attributes (payload : Json.Members) : Except ClaimProblem Json.Members :=
  match Json.get? payload "claims" with
  | none => .error (.missing "claims")
  | some (.object ms) => .ok ms
  | some _ => .error (.invalid "claims")

def parsed {ε α : Type} (claim : String) (r : Except ε α) : Except ClaimProblem α :=
  r.mapError fun _ => .invalid claim

end Claim

namespace Credential

def toPayload (c : Credential) : Json.Members :=
  Json.membersOf ([("jti", c.id.json), ("sub", c.subjectId.json), ("iat", .ofInt c.issuedAt.epoch),
      ("exp", .ofInt c.expiresAt.epoch)]
    ++ Json.optionalOf "nbf" (fun t : Instant => .ofInt t.epoch) c.notBefore
    ++ [("policyId", c.policyId.json), ("policyHash", .string c.policyHash)]
    ++ Json.optionalOf "deviceTag" .string c.deviceTag
    ++ [("claims", .object c.claims)])

/-- The credential in a payload; the first claim at fault is reported. -/
def ofPayload (payload : Json.Members) (keyId : KeyId) : Except ClaimProblem Credential := do
  let id ← Claim.parsed "jti" (CredentialId.parse (← Claim.requiredText payload "jti"))
  let subjectId ← Claim.parsed "sub" (SubjectId.ofName (← Claim.requiredText payload "sub"))
  let policyId ←
    Claim.parsed "policyId" (PolicyId.ofName (← Claim.requiredText payload "policyId"))
  let policyHash ← Claim.requiredText payload "policyHash"
  let issuedAt ← Claim.requiredInstant payload "iat"
  let expiresAt ← Claim.requiredInstant payload "exp"
  let notBefore ← Claim.optionalInstant payload "nbf"
  let deviceTag ← Claim.optionalText payload "deviceTag"
  let claims ← Claim.attributes payload
  return ⟨id, policyId, subjectId, claims, issuedAt, expiresAt, notBefore, keyId, deviceTag,
    policyHash⟩

def boundDocument (c : Credential) : Json :=
  .ofMembers [("credentialId", c.id.json), ("policyId", c.policyId.json),
    ("subjectId", c.subjectId.json), ("issuedAt", .ofInt c.issuedAt.epoch),
    ("expiresAt", .ofInt c.expiresAt.epoch), ("policyHash", .string c.policyHash)]

def hash (c : Credential) : String := (Canonical.ofJson c.boundDocument).hash

def tryHash (c : Credential) : Except CanonicalizationError String :=
  (Canonical.ofValue c.boundDocument).map Canonical.hash

def json (c : Credential) : Json :=
  .ofMembers ([("credentialId", c.id.json), ("policyId", c.policyId.json),
      ("subjectId", c.subjectId.json), ("claims", .object c.claims),
      ("issuedAt", c.issuedAt.json), ("expiresAt", c.expiresAt.json),
      ("issuerSigningKeyId", c.keyId.json), ("policyHash", .string c.policyHash)]
    ++ Json.optionalOf "notBefore" Instant.json c.notBefore
    ++ Json.optionalOf "deviceTag" .string c.deviceTag)

def ofWritten? (w : Written) : Option Credential := do
  let r ← Record.read ["credentialId", "policyId", "subjectId", "claims", "issuedAt", "expiresAt",
    "notBefore", "issuerSigningKeyId", "deviceTag", "policyHash"] w
  return {
    id := ← r.required "credentialId" CredentialId.ofWritten?
    policyId := ← r.required "policyId" PolicyId.ofWritten?
    subjectId := ← r.required "subjectId" SubjectId.ofWritten?
    claims := ← r.required "claims" (Written.membersWithin (Json.maxDepth - 2))
    issuedAt := ← r.required "issuedAt" Instant.ofWritten?
    expiresAt := ← r.required "expiresAt" Instant.ofWritten?
    notBefore := ← r.defaulted "notBefore" none (Written.nullable Instant.ofWritten?)
    keyId := ← r.required "issuerSigningKeyId" KeyId.ofWritten?
    deviceTag := ← r.defaulted "deviceTag" none (Written.nullable Written.text?)
    policyHash := ← r.required "policyHash" Written.text? }

end Credential
end Credentials
