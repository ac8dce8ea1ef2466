import Credentials.Environment
import Credentials.Trust.Basic
import Credentials.World

/-!
# What a trust configuration builds

Key ring, policy registry and verifiers. Seeds and the challenge key may come from the environment,
which is looked up only for the variables that the configuration names.
-/

namespace Credentials

inductive TrustError where
  | identifier (cause : IdentifierError)
  /-- an entry with no source, or with more than one -/
  | keySource (id : KeyId)
  | seed (id : KeyId) (cause : KeyError)
  | seedUnset (name : String) (id : KeyId)
  | seedInVariable (name : String) (id : KeyId) (cause : KeyError)
  | publicKey (id : KeyId) (cause : KeyError)
  | keys (cause : KeyServiceError)
  | policy (id : PolicyId) (version : PolicyVersion) (cause : RegistryError)
  | noVerifier
  | challengeKeyUnset (name : String)
  | challengeKey (name : String) (cause : CommitmentError)
deriving DecidableEq

def Environment.unset : String := "environment variable not found"

namespace TrustError

def message : TrustError → String
  | .identifier cause => cause.message
  | .keySource id => s!"key {id.name}: set exactly one of seedHex, seedEnv, publicKeyHex"
  | .seed id cause => s!"invalid seedHex for key {id.name}: {cause.message}"
  | .seedUnset v id => s!"{v} is not set (key {id.name}): {Environment.unset}"
  | .seedInVariable v id cause => s!"invalid seed in {v} for key {id.name}: {cause.message}"
  | .publicKey id cause => s!"invalid publicKeyHex for key {id.name}: {cause.message}"
  | .keys cause => cause.message
  | .policy id v cause => s!"policy {id.name} {v.text}: {cause.message}"
  | .noVerifier => "trust config has no \x60verifier\x60 section"
  | .challengeKeyUnset v => s!"{v} is not set: {Environment.unset}"
  | .challengeKey v cause => s!"invalid challenge key in {v}: {cause.message}"

end TrustError

namespace KeySource

/-- The material of a key: a pair from a seed, or a public half alone. -/
def material (env : Environment) (id : KeyId) : KeySource → Except TrustError KeyMaterial
  | .seed hex => ((KeyPair.ofSeedHex hex).mapError (.seed id)).map .ofPair
  | .seedVariable v =>
    match env v with
    | none => .error (.seedUnset v id)
    | some hex => ((KeyPair.ofSeedHex hex).mapError (.seedInVariable v id)).map .ofPair
  | .publicKey hex => ((PublicKey.ofHex hex).mapError (.publicKey id)).map .publicOnly

end KeySource

namespace KeyRing

/-- Registers a key under a status. A retired pair is registered first and retired then. -/
def insertMaterial (ring : KeyRing) (id : KeyId) (status : KeyStatus) :
    KeyMaterial → Except KeyServiceError KeyRing
  | .publicOnly key => (ring.insertPublic id key status).map (·.2)
  | .pair pair _ _ => do
    let (_, ring) ← ring.insert id pair
    if status = .retired then ring.retire id else return ring

end KeyRing

namespace KeyEntry

def addTo (env : Environment) (ring : KeyRing) (e : KeyEntry) : Except TrustError KeyRing := do
  let id ← (KeyId.ofName e.keyId).mapError .identifier
  match e.source? with
  | none => throw (.keySource id)
  | some source => do
    let material ← source.material env id
    (ring.insertMaterial id e.status material).mapError .keys

end KeyEntry

namespace TrustConfig

def keyRing (c : TrustConfig) (env : Environment) : Except TrustError KeyRing := do
  let ring ← c.keys.foldlM (KeyEntry.addTo env) KeyRing.empty
  match c.currentKey with
  | none => return ring
  | some name => do
    let id ← (KeyId.ofName name).mapError .identifier
    (ring.setCurrent id).mapError .keys

def policyRegistry (c : TrustConfig) : Except TrustError PolicyRegistry :=
  c.policies.foldlM (fun r d => (r.register d).mapError (.policy d.id d.version)) .empty

/-- The settings of the verifier, which need not be there. -/
def verifierSettings (c : TrustConfig) : Except TrustError VerifierSettings :=
  match c.verifier with
  | none => .error .noVerifier
  | some v => .ok v

def challengeKey (c : TrustConfig) (env : Environment) : Except TrustError CommitmentKey := do
  let v ← c.verifierSettings
  match env v.challengeKeyVariable with
  | none => throw (.challengeKeyUnset v.challengeKeyVariable)
  | some hex => (CommitmentKey.ofHex hex).mapError (.challengeKey v.challengeKeyVariable)

/-- The settings for zero-knowledge presentations; a timeout of zero counts as unset. -/
def zeroKnowledge (c : TrustConfig) (env : Environment) :
    Except TrustError ZeroKnowledgeSettings := do
  let v ← c.verifierSettings
  let key ← c.challengeKey env
  return ⟨key, (v.timeoutMillis.filter (0 < ·)).getD defaultProofTimeout⟩

/-- The clock skew that validation allows, in seconds. -/
def clockSkew (c : TrustConfig) : Nat := c.skew.getD defaultSkew

def validator (c : TrustConfig) : Validator World := World.validator c.clockSkew c.bindsPolicies

/-- The world with the configured keys, and with the policies where they are needed. -/
def world (c : TrustConfig) (env : Environment) (needsPolicies : Bool) (start : World) :
    Except TrustError World := do
  let keys ← c.keyRing env
  let policies ← if needsPolicies then c.policyRegistry else pure .empty
  return { start with keys, policies }

/-- The engine with both verifiers, and the world that it works on. -/
def engine (c : TrustConfig) (env : Environment) (start : World) :
    Except TrustError (Engine World × World) := do
  let v ← c.verifierSettings
  let w ← c.world env true start
  let settings ← c.zeroKnowledge env
  let credentials : CredentialVerifier World := ⟨c.validator, v.credentialType, v.flag⟩
  let zeroKnowledge := World.zeroKnowledgeVerifier settings
  return ((World.engine.register credentials.verifier).register zeroKnowledge.verifier, w)

def variableNames (c : TrustConfig) : List String :=
  c.keys.filterMap KeyEntry.seedVariable ++ (c.verifier.map (·.challengeKeyVariable)).toList

end TrustConfig
end Credentials
