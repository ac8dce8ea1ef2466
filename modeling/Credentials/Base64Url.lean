import Credentials.Bytes

/-!
# Base64url

Bytes as text over letters, digits, the hyphen and the underscore, without padding. Every byte string
has one text; reading refuses other characters, and bits set beyond the last byte.
-/

namespace Credentials.Base64Url

def digit (n : Nat) : UInt8 :=
  if n < 26 then UInt8.ofNat (0x41 + n)
  else if n < 52 then UInt8.ofNat (0x47 + n)
  else if n < 62 then UInt8.ofNat (n - 4)
  else if n = 62 then 0x2d
  else 0x5f

def digitValue? (b : UInt8) : Option Nat :=
  if 0x41 ≤ b ∧ b ≤ 0x5a then some (b.toNat - 0x41)
  else if 0x61 ≤ b ∧ b ≤ 0x7a then some (b.toNat - 0x47)
  else if 0x30 ≤ b ∧ b ≤ 0x39 then some (b.toNat + 4)
  else if b = 0x2d then some 62
  else if b = 0x5f then some 63
  else none

/-- Three bytes are four digits; one byte left over is two, two bytes are three. -/
def digits : Bytes → Bytes
  | [] => []
  | [a] => [digit (a.toNat / 4), digit (a.toNat % 4 * 16)]
  | [a, b] =>
    [digit (a.toNat / 4), digit (a.toNat % 4 * 16 + b.toNat / 16), digit (b.toNat % 16 * 4)]
  | a :: b :: c :: r =>
    digit (a.toNat / 4) :: digit (a.toNat % 4 * 16 + b.toNat / 16)
      :: digit (b.toNat % 16 * 4 + c.toNat / 64) :: digit (c.toNat % 64) :: digits r

def ofValues : List Nat → Option Bytes
  | [] => some []
  | [_] => none
  | [a, b] => if b % 16 = 0 then some [UInt8.ofNat (a * 4 + b / 16)] else none
  | [a, b, c] =>
    if c % 4 = 0 then some [UInt8.ofNat (a * 4 + b / 16), UInt8.ofNat (b % 16 * 16 + c / 4)]
    else none
  | a :: b :: c :: d :: r =>
    (ofValues r).map fun rest =>
      UInt8.ofNat (a * 4 + b / 16) :: UInt8.ofNat (b % 16 * 16 + c / 4)
        :: UInt8.ofNat (c % 4 * 64 + d) :: rest

def decode? (s : Bytes) : Option Bytes := (s.mapM digitValue?).bind ofValues

def encode (b : Bytes) : String := Bytes.asciiText (digits b)

def decodeText? (s : String) : Option Bytes := decode? (Bytes.ofText s)

end Credentials.Base64Url
