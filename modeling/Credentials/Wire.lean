import Credentials.Identity
import Credentials.Json.Record
import Credentials.Key.Ring
import Credentials.Reason
import Credentials.Time.Instant

/-!
# Simple values as documents

How identifiers, instants, codes, keys, digests and signatures stand in documents. Names are not
checked when they are read.
-/

namespace Credentials

open Json (Written)

/-- A value in a record that is written only when it is there. -/
def Json.optionalOf {α : Type} (name : String) (write : α → Json) (value : Option α) : Json.Members :=
  Json.optional name (value.map write)

namespace PolicyId

def json (p : PolicyId) : Json := .string p.name

def ofWritten? (w : Written) : Option PolicyId := w.text?.map PolicyId.mk

end PolicyId

namespace SubjectId

def json (s : SubjectId) : Json := .string s.name

def ofWritten? (w : Written) : Option SubjectId := w.text?.map SubjectId.mk

end SubjectId

namespace KeyId

def json (k : KeyId) : Json := .string k.name

def ofWritten? (w : Written) : Option KeyId := w.text?.map KeyId.mk

end KeyId

namespace CredentialId

def json (c : CredentialId) : Json := .string c.text

def ofWritten? (w : Written) : Option CredentialId := (w.text?.bind Uuid.ofText?).map CredentialId.mk

end CredentialId

namespace PolicyVersion

def json (v : PolicyVersion) : Json := .ofNat v.number.toNat

def ofWritten? (w : Written) : Option PolicyVersion :=
  (w.natBelow? UInt32.size).map fun n => ⟨UInt32.ofNat n⟩

end PolicyVersion

namespace Instant

def json (t : Instant) : Json := .string t.text

def ofWritten? (w : Written) : Option Instant := w.text?.bind fun s => (parse s).toOption

end Instant

namespace Reason

def json (r : Reason) : Json := .string r.name

def ofWritten? (w : Written) : Option Reason := w.text?.bind ofName?

end Reason

namespace PublicKey

def json (k : PublicKey) : Json := .string k.hex

def ofWritten? (w : Written) : Option PublicKey := w.text?.bind fun s => (ofHex s).toOption

end PublicKey

namespace Signature

def json (s : Signature) : Json := .string s.hex

def ofWritten? (w : Written) : Option Signature := w.text?.bind fun s => (ofHex s).toOption

end Signature

namespace KeyStatus

def json (s : KeyStatus) : Json := .string s.name

def ofWritten? (w : Written) : Option KeyStatus := w.tag?.bind ofName?

end KeyStatus

namespace IssuerKey

def ofWritten? (w : Written) : Option IssuerKey := do
  let r ← Json.Record.read ["keyId", "status", "publicKey"] w
  return {
    id := ← r.required "keyId" KeyId.ofWritten?
    status := ← r.required "status" KeyStatus.ofWritten?
    publicKey := ← r.required "publicKey" PublicKey.ofWritten? }

end IssuerKey

namespace Digest

def byte? (w : Written) : Option UInt8 := (w.natBelow? 256).map UInt8.ofNat

/-- The bytes of a digest are listed, all thirty-two of them. -/
def bytes? (w : Written) : Option Bytes := (w.list? byte?).filter fun b => b.length = 32

def ofWritten? (w : Written) : Option Digest := do
  let r ← Json.Record.read ["algorithm", "bytes"] w
  return {
    algorithm := ← r.required "algorithm" fun w => w.tag?.bind DigestAlgorithm.ofTag?
    bytes := ← r.required "bytes" bytes? }

end Digest
end Credentials
