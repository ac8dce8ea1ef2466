import Credentials.Ed25519
import Credentials.Identity
import Credentials.Signal

/-!
# The key ring

The ring holds the issuer's keys, each registered once under its identifier and never removed, and
names at most one of them as the current key. A key is held as a pair or by its public half alone.
Retiring a key cannot be undone.
-/

namespace Credentials

inductive KeyStatus where
  | active
  | retired
deriving DecidableEq

namespace KeyStatus

def name : KeyStatus → String
  | .active => "active"
  | .retired => "retired"

def ofName? (s : String) : Option KeyStatus :=
  if s = "active" then some .active else if s = "retired" then some .retired else none

end KeyStatus

structure IssuerKey where
  id : KeyId
  status : KeyStatus
  publicKey : PublicKey
deriving DecidableEq

def IssuerKey.json (k : IssuerKey) : Json :=
  .ofMembers [("keyId", .string k.id.name), ("status", .string k.status.name),
    ("publicKey", .string k.publicKey.hex)]

def IssuerKey.isRetired (k : IssuerKey) : Bool := k.status = .retired

inductive KeyServiceError where
  | notFound (id : KeyId)
  | duplicate (id : KeyId)
  | retired (id : KeyId)
  /-- only the public half of the key is held -/
  | verificationOnly (id : KeyId)
  | unavailable (detail : String)
  | cancelled
deriving DecidableEq

namespace KeyServiceError

def message : KeyServiceError → String
  | .notFound id => s!"key not found: {id.name}"
  | .duplicate id => s!"key already exists: {id.name}"
  | .retired id => s!"key is retired: {id.name}"
  | .verificationOnly id => s!"no private key held for {id.name}"
  | .unavailable detail => s!"key service unavailable: {detail}"
  | .cancelled => Cancelled.mk.message

end KeyServiceError

/-- What is held of a key. The public half of a pair is worked out once. -/
inductive KeyMaterial where
  | pair (keyPair : KeyPair) (publicKey : PublicKey) (eq : publicKey = keyPair.publicKey)
  | publicOnly (publicKey : PublicKey)
deriving DecidableEq

namespace KeyMaterial

def ofPair (k : KeyPair) : KeyMaterial := .pair k k.publicKey rfl

def publicKey : KeyMaterial → PublicKey
  | .pair _ k _ => k
  | .publicOnly k => k

def keyPair? : KeyMaterial → Option KeyPair
  | .pair k _ _ => some k
  | .publicOnly _ => none

end KeyMaterial

structure KeyRecord where
  id : KeyId
  status : KeyStatus
  material : KeyMaterial
deriving DecidableEq

def KeyRecord.view (r : KeyRecord) : IssuerKey := ⟨r.id, r.status, r.material.publicKey⟩

/-- The records in the order of their registration, and the current key. -/
structure KeyRing where
  records : List KeyRecord
  current : Option KeyId
deriving DecidableEq

namespace KeyRing

def empty : KeyRing := ⟨[], none⟩

def find? (ring : KeyRing) (id : KeyId) : Option KeyRecord :=
  ring.records.find? fun r => r.id = id

def view? (ring : KeyRing) (id : KeyId) : Option IssuerKey := (ring.find? id).map KeyRecord.view

def currentKey? (ring : KeyRing) : Option IssuerKey :=
  (ring.current.bind ring.view?).filter fun k => !k.isRetired

def list (ring : KeyRing) : List IssuerKey :=
  (ring.records.map KeyRecord.view).mergeSort fun a b => !decide (nameBefore b.id.name a.id.name)

/-- Registers a pair as an active key. It becomes the current key if there is none. -/
def insert (ring : KeyRing) (id : KeyId) (pair : KeyPair) :
    Except KeyServiceError (IssuerKey × KeyRing) :=
  match ring.find? id with
  | some _ => .error (.duplicate id)
  | none =>
    let record : KeyRecord := ⟨id, .active, .ofPair pair⟩
    .ok (record.view, ⟨ring.records ++ [record], some (ring.current.getD id)⟩)

/-- Registers the public half of a key, which never becomes current. -/
def insertPublic (ring : KeyRing) (id : KeyId) (key : PublicKey) (status : KeyStatus) :
    Except KeyServiceError (IssuerKey × KeyRing) :=
  match ring.find? id with
  | some _ => .error (.duplicate id)
  | none =>
    let record : KeyRecord := ⟨id, status, .publicOnly key⟩
    .ok (record.view, ⟨ring.records ++ [record], ring.current⟩)

def signingPair (ring : KeyRing) (id : KeyId) : Except KeyServiceError KeyPair :=
  match ring.find? id with
  | none => .error (.notFound id)
  | some r =>
    if r.status = .retired then .error (.retired id)
    else match r.material.keyPair? with
      | none => .error (.verificationOnly id)
      | some k => .ok k

def setCurrent (ring : KeyRing) (id : KeyId) : Except KeyServiceError KeyRing :=
  match ring.signingPair id with
  | .error e => .error e
  | .ok _ => .ok ⟨ring.records, some id⟩

/-- Retires a key; if it was current, there is no current key. -/
def retire (ring : KeyRing) (id : KeyId) : Except KeyServiceError KeyRing :=
  match ring.find? id with
  | none => .error (.notFound id)
  | some _ =>
    .ok ⟨ring.records.map fun r => if r.id = id then ⟨r.id, .retired, r.material⟩ else r,
      if ring.current = some id then none else ring.current⟩

/-- Registers a new pair and makes it current. The key that was current stays active. -/
def rotate (ring : KeyRing) (id : KeyId) (pair : KeyPair) :
    Except KeyServiceError (IssuerKey × KeyRing) :=
  match ring.insert id pair with
  | .error e => .error e
  | .ok (view, ring) =>
    match ring.setCurrent id with
    | .error e => .error e
    | .ok ring => .ok (view, ring)

def sign (ring : KeyRing) (id : KeyId) (c : Canonical) : Except KeyServiceError Signature :=
  (ring.signingPair id).map fun k => k.sign c

/-- The description of a ring: how many keys it holds, and the current one. -/
def describe (ring : KeyRing) : String :=
  let current := match ring.current with
    | none => "None"
    | some id => s!"Some(KeyId({Text.quoted id.name}))"
  s!"InMemoryKeyService \x7b keys: {ring.records.length}, current: {current} \x7d"

end KeyRing
end Credentials
