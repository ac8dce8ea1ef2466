import Credentials.CommandLine.Command

/-!
# Running commands

Each command reads its files and arguments in a fixed order, and the first thing amiss is the error.
The decisions are those of the issuer, the validator and the engine.
-/

namespace Credentials

namespace Machine

def content (m : Machine) (path : String) : Except CommandError Bytes :=
  (m.read path).mapError (.unreadable path)

end Machine

namespace Command

def configOf (m : Machine) : Option String → Except CommandError TrustConfig
  | none => .error .noConfig
  | some path => do
    let b ← (m.file path).mapError (.unreadableConfig path)
    match Bytes.text? b with
    | none => throw (.unreadableConfig path "stream did not contain valid UTF-8")
    | some s =>
      match TrustConfig.parse? s with
      | none => throw (.invalidConfig path)
      | some c => return c

def runHash (m : Machine) (file : String) : Except CommandError Outcome := do
  let b ← m.content file
  let c ← (Canonical.ofText b).mapError (.hash file)
  return .done (.ofMembers [("algorithm", .string "sha256"), ("digest", .string c.hash)])

def runCommit (m : Machine) (file keyVariable : String) : Except CommandError Outcome := do
  match m.environment keyVariable with
  | none => throw (.keyUnset keyVariable)
  | some hex => do
    let b ← m.content file
    let key ← (Hex.decode hex).mapError .keyText
    let c ← (canonicalCommit b key).mapError .commitment
    return .done (.ofMembers [("algorithm", .string "hmac-sha256"), ("commitment", .string c)])

def runGenerateKey (m : Machine) (keyId : String) : Except CommandError Outcome := do
  let id ← (KeyId.ofName keyId).mapError .identifier
  let pair : KeyPair := ⟨m.randomBytes 0 32, by simp [Machine.randomBytes]⟩
  return .done (.ofMembers [("keyId", id.json), ("publicKeyHex", .string pair.publicKey.hex),
    ("seedHex", .string pair.seedHex)])

/-- The claims in a file; without a file there are none. -/
def claimsOf (m : Machine) : Option String → Except CommandError Json.Members
  | none => .ok []
  | some path => do
    match Json.parse (← m.content path) with
    | none => throw (.claimsText path)
    | some (.object ms) => return ms
    | some _ => throw (.claimsNoObject path)

def instantOf : Option String → Except CommandError (Option Instant)
  | none => .ok none
  | some s => ((Instant.parse s).mapError .instant).map some

def requestOf (m : Machine) (o : IssueOptions) : Except CommandError IssueRequest := do
  let claims ← claimsOf m o.claims
  let policyId ← (PolicyId.ofName o.policy).mapError .identifier
  let subjectId ← (SubjectId.ofName o.subject).mapError .identifier
  let version ← match o.version with
    | none => pure none
    | some n => ((PolicyVersion.ofNumber n).mapError .identifier).map some
  let expiry ← instantOf o.expiresAt
  let notBefore ← instantOf o.notBefore
  return { policyId, version, subjectId, claims, deviceTag := o.deviceTag, expiry, notBefore }

def refusal (e : IssuanceError) : Json :=
  .ofMembers [("issued", .bool false), ("reasonCode", (e.reason?.map Reason.json).getD .null),
    ("error", .string e.message)]

def runIssue (m : Machine) (c : TrustConfig) (o : IssueOptions) : Except CommandError Outcome := do
  let q ← requestOf m o
  let w ← (c.world m.environment true m.world).mapError .trust
  match (World.issuer.issue ⟨Uuid.ofRandom (m.randomBytes 0 16)⟩ q w).1 with
  | .ok i => return .done i.json
  | .error .cancelled => throw .cancelled
  | .error e => if e.isClientError then return ⟨refusal e, true⟩ else throw (.issuance e)

def tokenOf (m : Machine) : Option String → Option String → Except CommandError String
  | some token, _ => .ok token
  | none, none => .error .noToken
  | none, some path => do
    match Bytes.text? (← m.content path) with
    | none => throw .tokenText
    | some s => return s

def runValidate (m : Machine) (c : TrustConfig) (token tokenFile : Option String) :
    Except CommandError Outcome := do
  let s ← tokenOf m token tokenFile
  let w ← (c.world m.environment c.bindsPolicies m.world).mapError .trust
  match (c.validator.validate (Text.trim s) w).1 with
  | .ok v => return ⟨v.json, !v.isValid⟩
  | .error _ => throw .cancelled

def runChallenge (m : Machine) (c : TrustConfig) (policy : String) (audience : Option String)
    (lifetime : Option Int) : Except CommandError Outcome := do
  let key ← (c.challengeKey m.environment).mapError .trust
  let issuer : ChallengeIssuer := ⟨key, ChallengeIssuer.defaultLifetime⟩
  let issuer ← match lifetime with
    | none => pure issuer
    | some n => (issuer.withLifetime n).mapError .challenge
  let policyId ← (PolicyId.ofName policy).mapError .identifier
  let i ← (issuer.issue m.now (Uuid.ofRandom (m.randomBytes 0 16)) (m.randomBytes 16 32) policyId
    audience).mapError .challenge
  return .done i.json

def runVerify (m : Machine) (c : TrustConfig) (file : String) : Except CommandError Outcome := do
  match Json.readText VerificationRequest.ofWritten? (← m.content file) with
  | none => throw (.invalidRequest file)
  | some q => do
    let (engine, w) ← (c.engine m.environment m.world).mapError .trust
    match (engine.verify q w).1 with
    | .ok r => return ⟨r.json, !r.valid⟩
    | .error _ => throw .cancelled

/-- Runs a command, with the file of the trust configuration if one is named. -/
def run (m : Machine) (config : Option String) : Command → Except CommandError Outcome
  | .hash file => runHash m file
  | .commit file v => runCommit m file v
  | .generateKey id => runGenerateKey m id
  | .issue o => do runIssue m (← configOf m config) o
  | .validate token file => do runValidate m (← configOf m config) token file
  | .challenge policy audience n => do runChallenge m (← configOf m config) policy audience n
  | .verify file => do runVerify m (← configOf m config) file

end Command
end Credentials
