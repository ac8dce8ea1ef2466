import Credentials.World

/-!
# Faults

A world whose collaborators fail on demand, to try out what issuing and verifying make of it. A fault
either replaces a call or happens beside it; all other calls are those of the world.
-/

namespace Credentials

inductive FaultTarget where
  | currentKey
  | key
  | signer
  | currentPolicy
  | pinnedPolicy
  | proofs
deriving DecidableEq

inductive Fault where
  /-- the call fails, before the signal is looked at -/
  | unavailable (detail : String)
  /-- the call is made, and then the signal fires -/
  | cancels
  /-- the policy is said not to be there -/
  | notFound
  /-- the key that is found is said to be retired -/
  | foundRetired
  /-- the key is retired just before it is to sign -/
  | retires
  | rejects (detail : String)
  | hangs
  | crashes
deriving DecidableEq

namespace FaultTarget

def name : FaultTarget → String
  | .currentKey => "keys.current"
  | .key => "keys.get"
  | .signer => "signer"
  | .currentPolicy => "policies.current"
  | .pinnedPolicy => "policies.pinned"
  | .proofs => "proofs"

def all : List FaultTarget :=
  [.currentKey, .key, .signer, .currentPolicy, .pinnedPolicy, .proofs]

def ofName? (s : String) : Option FaultTarget := all.find? fun t => t.name = s

def outage : FaultTarget → String
  | .currentKey => "kms down"
  | .key => "kms down"
  | .signer => "hsm down"
  | .currentPolicy => "db down"
  | .pinnedPolicy => "db down"
  | .proofs => "connection refused"

def fault? (t : FaultTarget) (name : String) : Option Fault :=
  match name with
  | "unavailable" => some (.unavailable t.outage)
  | "cancel" => some .cancels
  | "notfound" => some .notFound
  | "retired" => some .foundRetired
  | "retire" => some .retires
  | "rejected" => some (.rejects "unknown circuit")
  | "hang" => some .hangs
  | "panic" => some .crashes
  | _ => none

end FaultTarget

structure FaultyWorld where
  world : World
  fault? : FaultTarget → Option Fault

namespace FaultyWorld

variable {ε α : Type}

def initial (now : Instant) : FaultyWorld := ⟨.initial now, fun _ => none⟩

def setFault (target : FaultTarget) (fault : Option Fault) (f : FaultyWorld) : FaultyWorld :=
  { f with fault? := fun t => if t = target then fault else f.fault? t }

def surroundings : Surroundings FaultyWorld :=
  ⟨fun f => f.world.cancelled, fun f => f.world.clock.now⟩

def inside (s : Step World ε α) : Step FaultyWorld ε α := fun f =>
  let (r, w) := s f.world
  (r, { f with world := w })

def thenCancel (s : Step World ε α) : Step FaultyWorld ε α := fun f =>
  let (r, f) := inside s f
  (r, { f with world := f.world.cancel })

def call (target : FaultTarget) (s : Step World ε α)
    (replaced : Fault → Option (Step FaultyWorld ε α)) : Step FaultyWorld ε α := fun f =>
  match f.fault? target with
  | none => inside s f
  | some .cancels => thenCancel s f
  | some fault => ((replaced fault).getD (inside s)) f

def failing (e : ε) : Option (Step FaultyWorld ε α) := some (throw e)

def keyDirectory : KeyDirectory FaultyWorld where
  current := call .currentKey World.keyDirectory.current fun
    | .unavailable detail => failing (.unavailable detail)
    | .foundRetired => some do
      let found ← inside World.keyDirectory.current
      return found.map fun k => { k with status := .retired }
    | _ => none
  find id := call .key (World.keyDirectory.find id) fun
    | .unavailable detail => failing (.unavailable detail)
    | _ => none

def signer : Signer FaultyWorld := fun id c =>
  call .signer (World.signer id c) fun
    | .unavailable detail => failing (.unavailable detail)
    | .retires => some fun f => inside (World.signer id c) (inside (World.retireKey id) f).2
    | _ => none

def policyDirectory : PolicyDirectory FaultyWorld := fun id version =>
  call (if version.isSome then .pinnedPolicy else .currentPolicy) (World.policyDirectory id version)
    fun
    | .unavailable detail => failing (.unavailable detail)
    | .notFound => failing (.notFound id)
    | _ => none

def proofService : ProofService FaultyWorld := fun q =>
  call .proofs (World.proofService q) fun
    | .unavailable detail => failing (.unavailable detail)
    | .rejects detail => failing (.rejected detail)
    | .hangs => failing .timedOut
    | .crashes => failing .crashed
    | _ => none

def issuer : Issuer FaultyWorld :=
  { surroundings with policies := policyDirectory, keys := keyDirectory, signer := signer }

def validator (skew : Nat) (bindsPolicies : Bool) : Validator FaultyWorld :=
  { surroundings with
    keys := keyDirectory
    policies := if bindsPolicies then some policyDirectory else none
    skew := skew }

def zeroKnowledgeVerifier (settings : ZeroKnowledgeSettings) : ZeroKnowledgeVerifier FaultyWorld :=
  { surroundings with
    policies := policyDirectory
    proofs := proofService
    settings := settings }

def engine : Engine FaultyWorld := { surroundings with verifiers := [] }

end FaultyWorld
end Credentials
