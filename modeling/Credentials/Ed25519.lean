import Credentials.Digest
import Credentials.Ed25519.Curve

/-!
# Ed25519 signatures over canonical bytes

Keys, signatures and seeds have fixed sizes. Only canonical bytes are signed, so two layouts of one
document share their signature. Verification is strict: the scalar is reduced, neither point is of
small order, and the recomputed point has the very encoding in the signature.
-/

namespace Credentials

inductive KeyError where
  | publicKeyText (cause : HexError)
  | publicKeyLength (actual : Nat)
  | notOnCurve
  | seedText (cause : HexError)
  | seedLength (actual : Nat)
  | signatureText (cause : HexError)
  | signatureLength (actual : Nat)
  | verificationFailed
deriving DecidableEq

namespace KeyError

def message : KeyError → String
  | .publicKeyText e => s!"key error: {e.message}"
  | .publicKeyLength n => s!"key error: public key must be 32 bytes, got {n}"
  | .notOnCurve => "key error: invalid public key: not a point of the curve"
  | .seedText e => s!"key error: {e.message}"
  | .seedLength n => s!"key error: seed must be 32 bytes, got {n}"
  | .signatureText e => s!"invalid signature encoding: {e.message}"
  | .signatureLength n => s!"invalid signature encoding: signature must be 64 bytes, got {n}"
  | .verificationFailed =>
    "signature verification failed: Ed25519 verification failed: not a signature of the message"

end KeyError

structure PublicKey where
  bytes : Bytes
  length_eq : bytes.length = 32
deriving DecidableEq

structure Signature where
  bytes : Bytes
  length_eq : bytes.length = 64
deriving DecidableEq

/-- A key pair, given by the seed of its private half. -/
structure KeyPair where
  seed : Bytes
  length_eq : seed.length = 32
deriving DecidableEq

def signatureAlgorithm : String := "EdDSA"

namespace PublicKey

def hex (k : PublicKey) : String := Hex.encode k.bytes

def ofHex (s : String) : Except KeyError PublicKey :=
  match Hex.decode s with
  | .error e => .error (.publicKeyText e)
  | .ok b => if h : b.length = 32 then .ok ⟨b, h⟩ else .error (.publicKeyLength b.length)

def describe (k : PublicKey) : String := s!"Ed25519PublicKey({Hex.encode (k.bytes.take 4)}...)"

def point (k : PublicKey) : Except KeyError Ed25519.Point :=
  match Ed25519.Point.decode? k.bytes with
  | some p => .ok p
  | none => .error .notOnCurve

end PublicKey

namespace Signature

def hex (s : Signature) : String := Hex.encode s.bytes

def ofBytes (b : Bytes) : Except KeyError Signature :=
  if h : b.length = 64 then .ok ⟨b, h⟩ else .error (.signatureLength b.length)

def ofHex (s : String) : Except KeyError Signature :=
  match Hex.decode s with
  | .error e => .error (.signatureText e)
  | .ok b => ofBytes b

def describe (s : Signature) : String := s!"Ed25519Signature({Hex.encode (s.bytes.take 4)}...)"

end Signature

namespace KeyPair

open Ed25519

def ofSeedHex (s : String) : Except KeyError KeyPair :=
  match Hex.decode s with
  | .error e => .error (.seedText e)
  | .ok b => if h : b.length = 32 then .ok ⟨b, h⟩ else .error (.seedLength b.length)

def describe (_ : KeyPair) : String := "Ed25519KeyPair(<private>)"

def seedHex (k : KeyPair) : String := Hex.encode k.seed

/-- The private scalar: the low half of the hashed seed with its fixed bits set. -/
def scalar (k : KeyPair) : Nat :=
  let n := numberOf ((sha512 k.seed).take 32)
  n % Nat.pow 2 254 / 8 * 8 + Nat.pow 2 254

def nonceKey (k : KeyPair) : Bytes := (sha512 k.seed).drop 32

end KeyPair

namespace Ed25519

theorem length_littleEndian (k n : Nat) : (littleEndian k n).length = k := by
  simp [littleEndian]

theorem length_encode (p : Point) : p.encode.length = 32 := length_littleEndian _ _

def hashScalar (b : Bytes) : Nat := numberOf (sha512 b) % groupOrder

end Ed25519

namespace KeyPair

open Ed25519

def publicKey (k : KeyPair) : PublicKey :=
  ⟨(Point.smul k.scalar Point.base).encode, length_encode _⟩

def sign (k : KeyPair) (c : Canonical) : Signature :=
  let r := hashScalar (k.nonceKey ++ c.bytes)
  let point := (Point.smul r Point.base).encode
  let h := hashScalar (point ++ k.publicKey.bytes ++ c.bytes)
  ⟨point ++ littleEndian 32 ((r + h * k.scalar) % groupOrder), by
    simp [point, length_encode, length_littleEndian]⟩

end KeyPair

namespace PublicKey

open Ed25519

def accepts (k : PublicKey) (a : Point) (c : Canonical) (s : Signature) : Bool :=
  let encodedR := s.bytes.take 32
  let scalar := numberOf (s.bytes.drop 32)
  match Point.decode? encodedR with
  | none => false
  | some r =>
    if groupOrder ≤ scalar || r.isSmallOrder || a.isSmallOrder then false
    else
      let h := hashScalar (encodedR ++ k.bytes ++ c.bytes)
      let expected := (Point.smul scalar Point.base).add (Point.smul h a.negate)
      expected.encode == encodedR

def verify (k : PublicKey) (c : Canonical) (s : Signature) : Except KeyError Unit :=
  match k.point with
  | .error e => .error e
  | .ok a => if k.accepts a c s then .ok () else .error .verificationFailed

end PublicKey
end Credentials
