import Credentials.Digest

/-!
# Keyed commitments

A commitment to a document is the HMAC of its canonical bytes under a key of at least 32 bytes.
-/

namespace Credentials

inductive CommitmentError where
  | keyTooShort (least actual : Nat)
  | invalidKey (cause : HexError)
  | canonicalization (cause : CanonicalizationError)
deriving DecidableEq

namespace CommitmentError

def message : CommitmentError → String
  | .keyTooShort least actual => s!"key too short: need at least {least} bytes, got {actual}"
  | .invalidKey cause => s!"invalid commitment key: {cause.message}"
  | .canonicalization cause => cause.message

end CommitmentError

namespace Hmac

def blockSize : Nat := 64

/-- The key as one block: hashed if longer than a block, then filled with zeros. -/
def keyBlock (key : Bytes) : Bytes :=
  let k := if key.length > blockSize then sha256 key else key
  k ++ List.replicate (blockSize - k.length) 0

def mask (m : UInt8) (block : Bytes) : Bytes := block.map (· ^^^ m)

def hmac (key message : Bytes) : Bytes :=
  let k := keyBlock key
  sha256 (mask 0x5c k ++ sha256 (mask 0x36 k ++ message))

end Hmac

def CommitmentKey.minLength : Nat := 32

structure CommitmentKey where
  bytes : Bytes
  minLength_le : CommitmentKey.minLength ≤ bytes.length

namespace CommitmentKey

def ofBytes (b : Bytes) : Except CommitmentError CommitmentKey :=
  if h : minLength ≤ b.length then .ok ⟨b, h⟩ else .error (.keyTooShort minLength b.length)

def ofHex (s : String) : Except CommitmentError CommitmentKey :=
  match Hex.decode s with
  | .error e => .error (.invalidKey e)
  | .ok b => ofBytes b

/-- The description of a key, which shows nothing but its length. -/
def describe (k : CommitmentKey) : String := s!"CommitmentKey(<{k.bytes.length} bytes>)"

def commit (k : CommitmentKey) (c : Canonical) : Digest := ⟨.hmacSha256, Hmac.hmac k.bytes c.bytes⟩

end CommitmentKey

/-- The commitment to a text under a key; the key is looked at first. -/
def canonicalCommit (text key : Bytes) : Except CommitmentError String :=
  match CommitmentKey.ofBytes key with
  | .error e => .error e
  | .ok k =>
    match Canonical.ofText text with
    | .error e => .error (.canonicalization e)
    | .ok c => .ok (k.commit c).hex

end Credentials
