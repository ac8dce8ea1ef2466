import Credentials.Base64Url
import Credentials.Challenge
import Credentials.Collaborators
import Credentials.Presentation.Basic
import Credentials.Proof

/-!
# Zero-knowledge presentations

The presentation answers a challenge with a proof. The public inputs are worked out anew and only
compared with the declared ones, so the proof service never sees an input chosen by the client. All
else is checked before that service is asked.
-/

namespace Credentials

open Json (Written Record)

structure DeclaredInputs where
  commitment : String
  policyHash : String
  sessionTag : Option String
deriving DecidableEq

namespace DeclaredInputs

def json (d : DeclaredInputs) : Json :=
  .ofMembers ([("challengeCommitment", .string d.commitment), ("policyHash", .string d.policyHash)]
    ++ Json.optionalOf "sessionTag" .string d.sessionTag)

def ofWritten? (w : Written) : Option DeclaredInputs := do
  let r ← Record.read ["challengeCommitment", "policyHash", "sessionTag"] w
  return {
    commitment := ← r.required "challengeCommitment" Written.text?
    policyHash := ← r.required "policyHash" Written.text?
    sessionTag := ← r.defaulted "sessionTag" none (Written.nullable Written.text?) }

end DeclaredInputs

structure ZeroKnowledgePresentation where
  proof : String
  challenge : Challenge
  /-- a version of the policy in place of the current one -/
  version : Option PolicyVersion
  declared : DeclaredInputs
deriving DecidableEq

namespace ZeroKnowledgePresentation

def json (p : ZeroKnowledgePresentation) : Json :=
  .ofMembers ([("proof", .string p.proof), ("challenge", p.challenge.json),
      ("publicInputs", p.declared.json)]
    ++ Json.optionalOf "policyVersion" PolicyVersion.json p.version)

def ofWritten? (w : Written) : Option ZeroKnowledgePresentation := do
  let r ← Record.read ["proof", "challenge", "policyVersion", "publicInputs"] w
  return {
    proof := ← r.required "proof" Written.text?
    challenge := ← r.required "challenge" Challenge.ofWritten?
    version := ← r.defaulted "policyVersion" none (Written.nullable PolicyVersion.ofWritten?)
    declared := ← r.required "publicInputs" DeclaredInputs.ofWritten? }

/-- The bytes of the proof, at least one. -/
def proofBytes? (p : ZeroKnowledgePresentation) : Option Bytes :=
  (Base64Url.decodeText? p.proof).filter fun b => !b.isEmpty

end ZeroKnowledgePresentation

def publicInputs (commitment policyHash : String) (sessionTag : Option String) : Json :=
  .ofMembers ([("challengeCommitment", .string commitment), ("policyHash", .string policyHash)]
    ++ Json.optionalOf "sessionTag" .string sessionTag)

/-- The settings of a verifier: the server's key, and how long the proof service may take. -/
structure ZeroKnowledgeSettings where
  challengeKey : CommitmentKey
  timeoutMillis : Nat

/-- How long the proof service may take unless set otherwise, in milliseconds. -/
def defaultProofTimeout : Nat := 5000

structure ZeroKnowledgeVerifier (W : Type) extends Surroundings W where
  policies : PolicyDirectory W
  proofs : ProofService W
  settings : ZeroKnowledgeSettings

namespace ZeroKnowledgeVerifier

variable {W : Type}

/-- A check that ends early: with a code, or with an error. -/
inductive Stop where
  | rejected (reason : Reason)
  | failed (cause : VerifierError)
deriving DecidableEq

def ofRegistry : RegistryError → Except Stop (Option PolicyDefinition)
  | .notFound _ => .ok none
  | .cancelled => .error (.failed .cancelled)
  | e => .error (.failed (.dependency s!"policy lookup: {e.message}"))

def ofProofService : ProofServiceError → Stop
  | .cancelled => .failed .cancelled
  | .crashed => .failed .crashed
  | .timedOut => .failed (.dependency ProofServiceError.timedOut.message)
  | e => .failed (.dependency s!"proof service: {e.message}")

/-- Looks a policy up; one that the directory does not know is not there. -/
def lookup (v : ZeroKnowledgeVerifier W) (id : PolicyId) (version : Option PolicyVersion) :
    Step W Stop (Option PolicyDefinition) :=
  v.guarded (.failed .cancelled) fun w =>
    match v.policies id version w with
    | (.ok found, w) => (.ok found, w)
    | (.error e, w) => (ofRegistry e, w)

/-- A definition that may be proved against: an active or a deprecated one. -/
def usable (p : PolicyDefinition) : Except Stop PolicyDefinition :=
  match p.status with
  | .active => .ok p
  | .deprecated => .ok p
  | _ => .error (.rejected .policyInactive)

/-- The definition that a proof is for. A pinned version has to be the current one or one that is
compatible with it. -/
def resolve (v : ZeroKnowledgeVerifier W) (id : PolicyId) (pinned : Option PolicyVersion) :
    Step W Stop PolicyDefinition := do
  match ← v.lookup id none with
  | none => throw (.rejected .policyNotFound)
  | some current =>
    match pinned with
    | none => Step.ofExcept (usable current)
    | some n =>
      if n = current.version then Step.ofExcept (usable current)
      else if n ∈ current.compatible then
        match ← v.lookup id (some n) with
        | none => throw (.rejected .policyNotFound)
        | some p => Step.ofExcept (usable p)
      else throw (.rejected .policyHashMismatch)

/-- The presentation in a document, with its proof and its recomputed commitment. -/
def opened (v : ZeroKnowledgeVerifier W) (presentation : Json) :
    Except Stop (ZeroKnowledgePresentation × Bytes × String) :=
  match Json.readJson ZeroKnowledgePresentation.ofWritten? presentation with
  | none => .error (.rejected .malformedPresentation)
  | some p =>
    match p.proofBytes? with
    | none => .error (.rejected .malformedPresentation)
    | some proof =>
      match p.challenge.tryCommitment v.settings.challengeKey with
      | .error e => .error (.failed (.dependency s!"challenge commitment: {e.message}"))
      | .ok commitment =>
        if Hex.agree commitment p.declared.commitment then .ok (p, proof, commitment)
        else .error (.rejected .publicInputMismatch)

/-- The request to the proof service, if the declared hash and the policy's schema allow it. -/
def request (d : PolicyDefinition) (p : ZeroKnowledgePresentation) (proof : Bytes)
    (commitment : String) : Except Stop ProofRequest :=
  match d.tryHash with
  | .error e => .error (.failed (.dependency s!"policy hash: {e.message}"))
  | .ok hash =>
    if !Hex.agree hash p.declared.policyHash then .error (.rejected .publicInputMismatch)
    else
      let inputs := publicInputs commitment hash p.declared.sessionTag
      match d.checkSignals inputs with
      | .ok () => .ok ⟨d.circuitId, d.verificationKeyId, proof, inputs⟩
      | .error (.signalsRejected _) => .error (.rejected .publicInputMismatch)
      | .error e => .error (.failed (.dependency s!"public signals schema: {e.message}"))

def run (v : ZeroKnowledgeVerifier W) (presentation : Json) : Step W Stop Bool := do
  let (p, proof, commitment) ← Step.ofExcept (v.opened presentation)
  let now ← v.time
  if p.challenge.isExpired now then throw (.rejected .challengeExpired)
  let d ← v.resolve p.challenge.policyId p.version
  let q ← Step.ofExcept (request d p proof commitment)
  v.guarded (.failed .cancelled) ((v.proofs q).mapError ofProofService)

def reject (r : Reason) : Verdict := .reject .zeroKnowledge [r]

def verify (v : ZeroKnowledgeVerifier W) (presentation : Json) : Step W VerifierError Verdict :=
  fun w =>
    match v.run presentation w with
    | (.ok true, w) => (.ok (.accept .zeroKnowledge none), w)
    | (.ok false, w) => (.ok (reject .proofInvalid), w)
    | (.error (.rejected r), w) => (.ok (reject r), w)
    | (.error (.failed e), w) => (.error e, w)

def verifier (v : ZeroKnowledgeVerifier W) : Verifier W := ⟨.zeroKnowledge, v.verify⟩

end ZeroKnowledgeVerifier
end Credentials
