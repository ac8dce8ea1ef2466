import Credentials.Policy.Definition
import Credentials.Presentation.Credential
import Credentials.Yaml.Document
import Credentials.Yaml.Value

/-!
# Trust configurations

A YAML document that names the signing keys, the policy definitions and the settings of the verifier
that are trusted. Fields that are not known are refused, except in policy definitions.
-/

namespace Credentials

open Yaml (Node Fields)

/-- A key as it is configured. Nothing in the type says that it has exactly one source. -/
structure KeyEntry where
  keyId : String
  status : KeyStatus
  seedHex : Option String
  /-- the variable of the environment that holds the seed -/
  seedVariable : Option String
  publicKeyHex : Option String
deriving DecidableEq

inductive KeySource where
  | seed (hex : String)
  | seedVariable (name : String)
  | publicKey (hex : String)
deriving DecidableEq

def KeyStatus.title : KeyStatus → String
  | .active => "Active"
  | .retired => "Retired"

namespace KeyEntry

def source? (e : KeyEntry) : Option KeySource :=
  match e.seedHex, e.seedVariable, e.publicKeyHex with
  | some s, none, none => some (.seed s)
  | none, some v, none => some (.seedVariable v)
  | none, none, some k => some (.publicKey k)
  | _, _, _ => none

def shown : Option String → String
  | none => "None"
  | some s => s!"Some({Text.quoted s})"

/-- The description of an entry; it does not show a seed. -/
def describe (e : KeyEntry) : String :=
  let seed := shown (e.seedHex.map fun _ => "<redacted>")
  let fields := ", ".intercalate [s!"key_id: {Text.quoted e.keyId}", s!"status: {e.status.title}",
    s!"seed_hex: {seed}", s!"seed_env: {shown e.seedVariable}",
    s!"public_key_hex: {shown e.publicKeyHex}"]
  s!"KeyEntry \x7b {fields} \x7d"

def ofNode? (v : Node) : Option KeyEntry := do
  let f ← Fields.read? ["keyId", "status", "seedHex", "seedEnv", "publicKeyHex"] false v
  return {
    keyId := ← f.required "keyId" Node.text?
    status := ← f.defaulted "status" .active fun v => v.text?.bind KeyStatus.ofName?
    seedHex := ← f.defaulted "seedHex" none (Node.nullable Node.text?)
    seedVariable := ← f.defaulted "seedEnv" none (Node.nullable Node.text?)
    publicKeyHex := ← f.defaulted "publicKeyHex" none (Node.nullable Node.text?) }

end KeyEntry

structure VerifierSettings where
  credentialType : String
  /-- the claim that has to be true in a credential -/
  flag : String
  /-- the variable of the environment that holds the challenge key -/
  challengeKeyVariable : String
  timeoutMillis : Option Nat
deriving DecidableEq

namespace VerifierSettings

/-- The variable that holds the challenge key unless set otherwise. -/
def defaultVariable : String := "PCRED_CHALLENGE_KEY_HEX"

def ofNode? (v : Node) : Option VerifierSettings := do
  let f ← Fields.read? ["expectedCredentialType", "attributeClaim", "challengeKeyEnv",
    "proofTimeoutMs"] false v
  return {
    credentialType := ← f.required "expectedCredentialType" Node.text?
    flag := ← f.defaulted "attributeClaim" CredentialVerifier.defaultFlag Node.text?
    challengeKeyVariable := ← f.defaulted "challengeKeyEnv" defaultVariable Node.text?
    timeoutMillis := ← f.defaulted "proofTimeoutMs" none
      (Node.nullable (Node.natBelow? UInt64.size)) }

end VerifierSettings

def PolicyVersion.ofNode? (v : Node) : Option PolicyVersion :=
  (v.natBelow? UInt32.size).map fun n => ⟨UInt32.ofNat n⟩

def PolicySignature.ofNode? (v : Node) : Option PolicySignature := do
  let f ← Fields.read? ["keyId", "signature"] true v
  return {
    keyId := ← f.required "keyId" fun v => v.text?.map KeyId.mk
    signature := ← f.required "signature" fun v =>
      v.text?.bind fun s => (Signature.ofHex s).toOption }

def PolicyDefinition.ofNode? (v : Node) : Option PolicyDefinition := do
  let f ← Fields.read? ["policyId", "version", "status", "circuitId", "verificationKeyId",
    "verificationKeyFingerprint", "compatibleVersions", "defaultExpirySecs",
    "requiredPublicSignalsSchema", "signature"] true v
  let schema ← f.defaulted "requiredPublicSignalsSchema" .empty fun v =>
    v.json?.bind Json.lexed?
  return {
    id := ← f.required "policyId" fun v => v.text?.map PolicyId.mk
    version := ← f.required "version" PolicyVersion.ofNode?
    status := ← f.required "status" fun v => v.text?.bind PolicyStatus.ofName?
    circuitId := ← f.required "circuitId" Node.text?
    verificationKeyId := ← f.required "verificationKeyId" Node.text?
    verificationKeyFingerprint := ← f.required "verificationKeyFingerprint" Node.text?
    compatible := ← f.defaulted "compatibleVersions" [] (Node.list? PolicyVersion.ofNode?)
    lifetime := ← f.required "defaultExpirySecs" fun v => (v.natBelow? UInt64.size).map UInt64.ofNat
    signalsSchema := schema.value
    signature := ← f.defaulted "signature" none (Node.nullable PolicySignature.ofNode?)
    lexical := schema.isLexical }

structure TrustConfig where
  skew : Option Nat
  /-- whether validation binds credentials to policies -/
  bindsPolicies : Bool
  /-- the key to issue with in place of the first -/
  currentKey : Option String
  keys : List KeyEntry
  policies : List PolicyDefinition
  verifier : Option VerifierSettings

namespace TrustConfig

def ofNode? (v : Node) : Option TrustConfig := do
  let f ← Fields.read? ["clockSkewSecs", "bindPolicies", "currentKey", "keys", "policies",
    "verifier"] false v
  return {
    skew := ← f.defaulted "clockSkewSecs" none (Node.nullable (Node.natBelow? UInt64.size))
    bindsPolicies := ← f.defaulted "bindPolicies" false Node.bool?
    currentKey := ← f.defaulted "currentKey" none (Node.nullable Node.text?)
    keys := ← f.defaulted "keys" [] (Node.list? KeyEntry.ofNode?)
    policies := ← f.defaulted "policies" [] (Node.list? PolicyDefinition.ofNode?)
    verifier := ← f.defaulted "verifier" none (Node.nullable VerifierSettings.ofNode?) }

def parse? (s : String) : Option TrustConfig := (Yaml.read? s).bind ofNode?

end TrustConfig
end Credentials
