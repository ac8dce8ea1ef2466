import Credentials.Json.Canonical
import Credentials.Hex
import Credentials.Sha2

/-!
# Digests of canonical bytes

A digest is made of canonical bytes only, so documents that differ in layout alone have one digest.
-/

namespace Credentials

inductive DigestAlgorithm where
  | sha256
  | hmacSha256
deriving DecidableEq

namespace DigestAlgorithm

def name : DigestAlgorithm → String
  | .sha256 => "sha256"
  | .hmacSha256 => "hmac-sha256"

def tag : DigestAlgorithm → String
  | .sha256 => "Sha256"
  | .hmacSha256 => "HmacSha256"

def ofTag? (s : String) : Option DigestAlgorithm :=
  if s = "Sha256" then some .sha256
  else if s = "HmacSha256" then some .hmacSha256
  else none

end DigestAlgorithm

structure Digest where
  algorithm : DigestAlgorithm
  bytes : Bytes
deriving DecidableEq

namespace Digest

def hex (d : Digest) : String := Hex.encode d.bytes

def text (d : Digest) : String := s!"{d.algorithm.name}:{d.hex}"

def json (d : Digest) : Json :=
  .ofMembers [("algorithm", .string d.algorithm.tag),
    ("bytes", .array (d.bytes.map fun b => .ofNat b.toNat))]

end Digest

def Canonical.digest (c : Canonical) : Digest := ⟨.sha256, sha256 c.bytes⟩

/-- The hash of a document: its digest in hexadecimal. -/
def Canonical.hash (c : Canonical) : String := c.digest.hex

def canonicalHash (text : Bytes) : Except CanonicalizationError String :=
  (Canonical.ofText text).map Canonical.hash

end Credentials
