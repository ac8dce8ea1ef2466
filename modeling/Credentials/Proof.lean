import Credentials.Digest
import Credentials.Json.Record
import Credentials.Signal

/-!
# Proofs

The service that checks proofs is asked about a circuit, proof bytes and public inputs. A transparent
stand-in takes as the one proof for a circuit and public inputs the hash of both.
-/

namespace Credentials

structure ProofRequest where
  circuitId : String
  verificationKeyId : String
  proof : Bytes
  publicInputs : Json

namespace ProofRequest

/-- The document of a request; the proof travels beside it. -/
def json (q : ProofRequest) : Json :=
  .ofMembers [("circuitId", .string q.circuitId), ("verificationKeyId", .string q.verificationKeyId),
    ("publicInputs", q.publicInputs)]

def ofWritten? (w : Json.Written) : Option ProofRequest := do
  let r ← Json.Record.read ["circuitId", "verificationKeyId", "publicInputs"] w
  return {
    circuitId := ← r.required "circuitId" Json.Written.text?
    verificationKeyId := ← r.required "verificationKeyId" Json.Written.text?
    proof := []
    publicInputs := ← r.required "publicInputs" (Json.Written.jsonWithin (Json.maxDepth - 1)) }

end ProofRequest

inductive ProofServiceError where
  | unavailable (detail : String)
  | rejected (detail : String)
  /-- no answer in the time allowed -/
  | timedOut
  /-- the call broke down -/
  | crashed
  | cancelled
deriving DecidableEq

namespace ProofServiceError

def message : ProofServiceError → String
  | .unavailable detail => s!"proof service unavailable: {detail}"
  | .rejected detail => s!"proof request rejected: {detail}"
  | .timedOut => "proof service timed out"
  | .crashed => "proof service crashed"
  | .cancelled => Cancelled.mk.message

end ProofServiceError

abbrev ProofService (W : Type) := ProofRequest → Step W ProofServiceError Bool

namespace TransparentProof

def document (circuitId : String) (publicInputs : Json) : Json :=
  .ofMembers [("circuitId", .string circuitId), ("publicInputs", publicInputs)]

def prove (circuitId : String) (publicInputs : Json) : Bytes :=
  (Canonical.ofJson (document circuitId publicInputs)).digest.bytes

def holds (q : ProofRequest) : Bool := q.proof == prove q.circuitId q.publicInputs

def tryProve (circuitId : String) (publicInputs : Json) : Except CanonicalizationError Bytes :=
  (Canonical.ofValue (document circuitId publicInputs)).map fun c => c.digest.bytes

/-- The answer to a request: whether its proof is the one there is. -/
def check (q : ProofRequest) : Except ProofServiceError Bool :=
  match tryProve q.circuitId q.publicInputs with
  | .error e => .error (.rejected e.message)
  | .ok proof => .ok (q.proof == proof)

end TransparentProof
end Credentials
