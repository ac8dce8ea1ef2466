import Credentials.Issuer
import Credentials.Presentation.Credential
import Credentials.Presentation.Engine
import Credentials.Presentation.ZeroKnowledge
import Credentials.Time.Clock

/-!
# A world in memory

Key ring, policy registry, clock, signal and proof service in one state. The collaborators are steps
on it: each looks at the signal first and then at its own part.
-/

namespace Credentials

structure World where
  keys : KeyRing
  policies : PolicyRegistry
  clock : Clock
  cancelled : Bool
  /-- how often the proof service was asked -/
  proofCalls : Nat

namespace World

def initial (now : Instant) : World := ⟨.empty, .empty, .set now, false, 0⟩

def surroundings : Surroundings World := ⟨World.cancelled, fun w => w.clock.now⟩

def keyDirectory : KeyDirectory World where
  current := surroundings.guarded .cancelled (Step.look fun w => w.keys.currentKey?)
  find id := surroundings.guarded .cancelled (Step.look fun w => w.keys.view? id)

def signer : Signer World := fun id c =>
  surroundings.guarded .cancelled fun w => (w.keys.sign id c, w)

def policyDirectory : PolicyDirectory World := fun id version =>
  surroundings.guarded .cancelled (Step.look fun w => w.policies.get? id version)

/-- The transparent proof service counts the calls that it answers. -/
def proofService : ProofService World := fun q =>
  surroundings.guarded .cancelled fun w =>
    (TransparentProof.check q, { w with proofCalls := w.proofCalls + 1 })

def issuer : Issuer World :=
  { surroundings with policies := policyDirectory, keys := keyDirectory, signer := signer }

/-- A validator; it looks at policies only if told to bind credentials to them. -/
def validator (skew : Nat) (bindsPolicies : Bool) : Validator World :=
  { surroundings with
    keys := keyDirectory
    policies := if bindsPolicies then some policyDirectory else none
    skew := skew }

def zeroKnowledgeVerifier (settings : ZeroKnowledgeSettings) : ZeroKnowledgeVerifier World :=
  { surroundings with
    policies := policyDirectory
    proofs := proofService
    settings := settings }

def engine : Engine World := { surroundings with verifiers := [] }

/-- A change that may fail; a failed one changes nothing. -/
def keyStep {α : Type} (f : KeyRing → Except KeyServiceError (α × KeyRing)) :
    Step World KeyServiceError α := fun w =>
  match f w.keys with
  | .ok (a, ring) => (.ok a, { w with keys := ring })
  | .error e => (.error e, w)

def insertKey (id : KeyId) (pair : KeyPair) : Step World KeyServiceError IssuerKey :=
  keyStep fun ring => ring.insert id pair

def insertPublicKey (id : KeyId) (key : PublicKey) (status : KeyStatus) :
    Step World KeyServiceError IssuerKey :=
  keyStep fun ring => ring.insertPublic id key status

def setCurrentKey (id : KeyId) : Step World KeyServiceError Unit :=
  keyStep fun ring => (ring.setCurrent id).map ((), ·)

def retireKey (id : KeyId) : Step World KeyServiceError Unit :=
  keyStep fun ring => (ring.retire id).map ((), ·)

/-- Registers a new pair and then makes it current. -/
def rotateKey (id : KeyId) (pair : KeyPair) : Step World KeyServiceError IssuerKey := do
  let key ← insertKey id pair
  setCurrentKey id
  return key

def registryStep (f : PolicyRegistry → Except RegistryError PolicyRegistry) :
    Step World RegistryError Unit := fun w =>
  match f w.policies with
  | .ok r => (.ok (), { w with policies := r })
  | .error e => (.error e, w)

def registerPolicy (d : PolicyDefinition) : Step World RegistryError Unit :=
  registryStep fun r => r.register d

def setPolicyStatus (id : PolicyId) (v : PolicyVersion) (s : PolicyStatus) :
    Step World RegistryError Unit :=
  registryStep fun r => r.setStatus id v s

def setClock (t : Instant) (w : World) : World := { w with clock := .set t }

def advanceClock (secs : Int64) (w : World) : World := { w with clock := w.clock.advance secs }

def cancel (w : World) : World := { w with cancelled := true }

/-- A new signal in place of the old one. -/
def renewSignal (w : World) : World := { w with cancelled := false }

end World
end Credentials
