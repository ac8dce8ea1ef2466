import Credentials.Json.Serialized
import Credentials.Policy.Status
import Credentials.Schema.PublicSignals
import Credentials.Wire

/-!
# Policy definitions

A definition is known by its policy and version. Its hash covers every field but the status and the
signature, and the signature covers exactly the bytes that are hashed. `hash` says what the hash is,
`tryHash` computes it.
-/

namespace Credentials

open Json (Written Record)

structure PolicySignature where
  keyId : KeyId
  signature : Signature
deriving DecidableEq

namespace PolicySignature

def json (s : PolicySignature) : Json :=
  .ofMembers [("keyId", s.keyId.json), ("signature", s.signature.json)]

def ofWritten? (w : Written) : Option PolicySignature := do
  let r ← Record.read ["keyId", "signature"] w
  return {
    keyId := ← r.required "keyId" KeyId.ofWritten?
    signature := ← r.required "signature" Signature.ofWritten? }

end PolicySignature

structure PolicyDefinition where
  id : PolicyId
  version : PolicyVersion
  status : PolicyStatus
  circuitId : String
  verificationKeyId : String
  verificationKeyFingerprint : String
  /-- other versions whose credentials remain acceptable -/
  compatible : List PolicyVersion
  /-- the lifetime of a credential that asks for none, in seconds -/
  lifetime : UInt64
  /-- the schema that public signals must meet -/
  signalsSchema : Json
  signature : Option PolicySignature
  lexical : signalsSchema.isLexical = true := by rfl

inductive PolicyError where
  | canonicalization (cause : CanonicalizationError)
  | unsigned
  | badSignature (cause : KeyError)
  | invalidSchema
  | signalsRejected (violations : Nat)
  | versionZero
  | emptyCircuit
  | lifetimeOutOfRange (secs : UInt64)
  | compatibleWithItself
deriving DecidableEq

namespace PolicyError

def message : PolicyError → String
  | .canonicalization cause => s!"canonicalization failed: {cause.message}"
  | .unsigned => "policy definition is unsigned"
  | .badSignature cause => s!"policy signature invalid: {cause.message}"
  | .invalidSchema => "invalid public signals schema: it does not compile"
  | .signalsRejected n => s!"public signals rejected: {n} violations"
  | .versionZero => "invalid policy definition: version must be at least 1"
  | .emptyCircuit => "invalid policy definition: circuitId must not be empty"
  | .lifetimeOutOfRange n => s!"invalid policy definition: defaultExpirySecs out of range: {n.toNat}"
  | .compatibleWithItself =>
    "invalid policy definition: compatibleVersions must not list the definition's own version"

end PolicyError

namespace PolicyDefinition

def maxLifetime : Nat := Nat.pow 2 63 - 1

/-- Checks what no type rules out, in this order. -/
def validate (d : PolicyDefinition) : Except PolicyError Unit :=
  if d.version.number = 0 then .error .versionZero
  else if Text.isAllBlank d.circuitId then .error .emptyCircuit
  else if d.lifetime = 0 ∨ maxLifetime < d.lifetime.toNat then
    .error (.lifetimeOutOfRange d.lifetime)
  else if d.version ∈ d.compatible then .error .compatibleWithItself
  else match PublicSignalsSchema.compile d.signalsSchema with
    | none => .error .invalidSchema
    | some _ => .ok ()

def boundMembers (d : PolicyDefinition) : Json.Members :=
  [("policyId", d.id.json), ("version", d.version.json), ("circuitId", .string d.circuitId),
    ("verificationKeyId", .string d.verificationKeyId),
    ("verificationKeyFingerprint", .string d.verificationKeyFingerprint),
    ("compatibleVersions", .array (d.compatible.map PolicyVersion.json)),
    ("defaultExpirySecs", .ofNat d.lifetime.toNat),
    ("requiredPublicSignalsSchema", d.signalsSchema)]

def json (d : PolicyDefinition) : Json :=
  .ofMembers (d.boundMembers ++ [("status", d.status.json)]
    ++ Json.optionalOf "signature" PolicySignature.json d.signature)

def ofWritten? (w : Written) : Option PolicyDefinition := do
  let r ← Record.read ["policyId", "version", "status", "circuitId", "verificationKeyId",
    "verificationKeyFingerprint", "compatibleVersions", "defaultExpirySecs",
    "requiredPublicSignalsSchema", "signature"] w
  let schema ← r.defaulted "requiredPublicSignalsSchema" .empty fun w =>
    (w.jsonWithin (Json.maxDepth - 1)).bind Json.lexed?
  return {
    id := ← r.required "policyId" PolicyId.ofWritten?
    version := ← r.required "version" PolicyVersion.ofWritten?
    status := ← r.required "status" PolicyStatus.ofWritten?
    circuitId := ← r.required "circuitId" Written.text?
    verificationKeyId := ← r.required "verificationKeyId" Written.text?
    verificationKeyFingerprint := ← r.required "verificationKeyFingerprint" Written.text?
    compatible := ← r.defaulted "compatibleVersions" [] (Written.list? PolicyVersion.ofWritten?)
    lifetime := ← r.required "defaultExpirySecs" fun w =>
      (w.natBelow? UInt64.size).map UInt64.ofNat
    signalsSchema := schema.value
    signature := ← r.defaulted "signature" none (Written.nullable PolicySignature.ofWritten?)
    lexical := schema.isLexical }

def hashInput (d : PolicyDefinition) : Canonical := .ofJson (.ofMembers d.boundMembers)

def hash (d : PolicyDefinition) : String := d.hashInput.hash

/-- What is hashed, by way of the tree into which the definition is serialized. -/
def tryHashInput (d : PolicyDefinition) : Except PolicyError Canonical :=
  match d.json.serialized? with
  | none => .error (.canonicalization .serializationFailed)
  | some v =>
    (Canonical.ofValue ((v.without "signature").without "status")).mapError .canonicalization

def tryHash (d : PolicyDefinition) : Except PolicyError String :=
  d.tryHashInput.map Canonical.hash

/-- The lifetime of a credential in seconds, at most the greatest one. -/
def lifetimeSecs (d : PolicyDefinition) : Nat := min d.lifetime.toNat maxLifetime

def sign (d : PolicyDefinition) (keyId : KeyId) (key : KeyPair) : PolicyDefinition :=
  { d with signature := some ⟨keyId, key.sign d.hashInput⟩ }

def trySign (d : PolicyDefinition) (keyId : KeyId) (key : KeyPair) :
    Except PolicyError PolicyDefinition :=
  d.tryHashInput.map fun c => { d with signature := some ⟨keyId, key.sign c⟩ }

def verifySignature (d : PolicyDefinition) (key : PublicKey) : Except PolicyError Unit :=
  match d.signature with
  | none => .error .unsigned
  | some s =>
    match d.tryHashInput with
    | .error e => .error e
    | .ok c => (key.verify c s.signature).mapError .badSignature

def checkSignals (d : PolicyDefinition) (signals : Json) : Except PolicyError Unit :=
  match PublicSignalsSchema.compile d.signalsSchema with
  | none => .error .invalidSchema
  | some s =>
    match s.violations signals with
    | 0 => .ok ()
    | n => .error (.signalsRejected n)

/-- Whether the hash of a credential is that of the definition, whatever the case of its letters. -/
def hasHash (d : PolicyDefinition) (hash : String) : Bool :=
  match d.tryHash with
  | .error _ => false
  | .ok h => Hex.agree h hash

end PolicyDefinition
end Credentials
