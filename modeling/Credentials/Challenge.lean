import Credentials.Commitment
import Credentials.Json.Serialized
import Credentials.Wire

/-!
# Challenges

A server hands out challenges and keeps none of them: the commitment to a challenge under the
server's key shows later that the challenge is its own and unchanged.
-/

namespace Credentials

open Json (Written Record)

structure Challenge where
  id : String
  nonce : String
  policyId : PolicyId
  /-- who is to rely on the answer -/
  audience : Option String
  issuedAt : Instant
  /-- the first instant at which the challenge is no longer good -/
  expiresAt : Instant
deriving DecidableEq

inductive ChallengeError where
  | commitment (cause : CommitmentError)
  /-- not positive, or beyond the last instant -/
  | invalidLifetime (secs : Int)
deriving DecidableEq

namespace ChallengeError

def message : ChallengeError → String
  | .commitment cause => cause.message
  | .invalidLifetime n => s!"invalid challenge lifetime: {n}s"

end ChallengeError

namespace Challenge

def json (c : Challenge) : Json :=
  .ofMembers ([("challengeId", .string c.id), ("nonce", .string c.nonce),
      ("policyId", c.policyId.json), ("issuedAt", c.issuedAt.json),
      ("expiresAt", c.expiresAt.json)]
    ++ Json.optionalOf "audience" .string c.audience)

def ofWritten? (w : Written) : Option Challenge := do
  let r ← Record.read ["challengeId", "nonce", "policyId", "audience", "issuedAt", "expiresAt"] w
  return {
    id := ← r.required "challengeId" Written.text?
    nonce := ← r.required "nonce" Written.text?
    policyId := ← r.required "policyId" PolicyId.ofWritten?
    audience := ← r.defaulted "audience" none (Written.nullable Written.text?)
    issuedAt := ← r.required "issuedAt" Instant.ofWritten?
    expiresAt := ← r.required "expiresAt" Instant.ofWritten? }

def commitment (c : Challenge) (key : CommitmentKey) : String :=
  (key.commit (Canonical.ofJson c.json)).hex

def tryCommitment (c : Challenge) (key : CommitmentKey) : Except CommitmentError String :=
  match Canonical.ofSerialized c.json with
  | .error e => .error (.canonicalization e)
  | .ok b => .ok (key.commit b).hex

def matchesCommitment (c : Challenge) (key : CommitmentKey) (declared : String) : Bool :=
  Hex.agree (c.commitment key) declared

def isExpired (c : Challenge) (now : Instant) : Bool := c.expiresAt ≤ now

end Challenge

structure IssuedChallenge where
  challenge : Challenge
  commitment : String
deriving DecidableEq

namespace IssuedChallenge

def json (i : IssuedChallenge) : Json :=
  .ofMembers [("challenge", i.challenge.json), ("commitment", .string i.commitment)]

def ofWritten? (w : Written) : Option IssuedChallenge := do
  let r ← Record.read ["challenge", "commitment"] w
  return {
    challenge := ← r.required "challenge" Challenge.ofWritten?
    commitment := ← r.required "commitment" Written.text? }

end IssuedChallenge

structure ChallengeIssuer where
  key : CommitmentKey
  lifetime : Int

namespace ChallengeIssuer

/-- The lifetime of challenges unless set otherwise, in seconds. -/
def defaultLifetime : Int := 300

def withLifetime (i : ChallengeIssuer) (secs : Int) : Except ChallengeError ChallengeIssuer :=
  if secs ≤ 0 then .error (.invalidLifetime secs) else .ok { i with lifetime := secs }

/-- A challenge at a time, with a fresh identifier and thirty-two fresh bytes. -/
def issue (i : ChallengeIssuer) (now : Instant) (id : Uuid) (nonce : Bytes) (policyId : PolicyId)
    (audience : Option String) : Except ChallengeError IssuedChallenge :=
  match now.add? i.lifetime with
  | none => .error (.invalidLifetime i.lifetime)
  | some expiresAt =>
    let c : Challenge := ⟨id.text, Hex.encode nonce, policyId, audience, now, expiresAt⟩
    match c.tryCommitment i.key with
    | .error e => .error (.commitment e)
    | .ok commitment => .ok ⟨c, commitment⟩

end ChallengeIssuer
end Credentials
