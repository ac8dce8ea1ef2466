import Credentials.Hex.Digit

/-!
# Universally unique identifiers

Sixteen bytes. The text has 32 small digits in groups of 8, 4, 4, 4 and 12 between hyphens; reading
takes digits of either case, leaves out the hyphens all together or not at all, and takes a
hyphenated identifier in braces or after `urn:uuid:`.
-/

namespace Credentials

structure Uuid where
  bytes : Bytes
  length_eq : bytes.length = 16
deriving DecidableEq

namespace Uuid

def nil : Uuid := ⟨List.replicate 16 0, rfl⟩

/-- Digits in groups of the given sizes, with a hyphen between groups. -/
def grouped : List Nat → Bytes → Bytes
  | [], ds => ds
  | n :: r, ds => ds.take n ++ 0x2d :: grouped r (ds.drop n)

def textBytes (u : Uuid) : Bytes := grouped [8, 4, 4, 4] (Hex.digits u.bytes)

def text (u : Uuid) : String := Bytes.asciiText u.textBytes

/-- Takes groups of the given sizes, each ended by a hyphen, out of a text. -/
def ungrouped : List Nat → Bytes → Option Bytes
  | [], ds => some ds
  | n :: r, ds =>
    match ds.drop n with
    | 0x2d :: rest => (ungrouped r rest).map (ds.take n ++ ·)
    | _ => none

def ofDigitPairs : Bytes → Option Bytes
  | [] => some []
  | [_] => none
  | a :: b :: r =>
    match Hex.digitValue? a, Hex.digitValue? b, ofDigitPairs r with
    | some x, some y, some bs => some (UInt8.ofNat (16 * x + y) :: bs)
    | _, _, _ => none

def ofBytes? (b : Bytes) : Option Uuid :=
  if h : b.length = 16 then some ⟨b, h⟩ else none

def ofDigits? (ds : Bytes) : Option Uuid := (ofDigitPairs ds).bind ofBytes?

def ofHyphenated? (s : Bytes) : Option Uuid := (ungrouped [8, 4, 4, 4] s).bind ofDigits?

def urnMark : Bytes := [0x75, 0x72, 0x6e, 0x3a, 0x75, 0x75, 0x69, 0x64, 0x3a]

def ofTextBytes? (s : Bytes) : Option Uuid :=
  if s.length = 32 then ofDigits? s
  else if s.length = 36 then ofHyphenated? s
  else if s.length = 38 ∧ s.head? = some 0x7b ∧ s.getLast? = some 0x7d then
    ofHyphenated? (s.tail.take 36)
  else if s.length = 45 ∧ (s.take 9).map Bytes.small = urnMark then ofHyphenated? (s.drop 9)
  else none

def ofText? (s : String) : Option Uuid := ofTextBytes? (Bytes.ofText s)

def version (u : Uuid) : Nat := (u.bytes.getD 6 0).toNat / 16

/-- An identifier of version 4 from random bytes. -/
def ofRandom (b : Bytes) : Uuid :=
  let b := (b ++ List.replicate 16 0).take 16
  let b := (b.set 6 ((b.getD 6 0 &&& 0x0f) ||| 0x40)).set 8 ((b.getD 8 0 &&& 0x3f) ||| 0x80)
  if h : b.length = 16 then ⟨b, h⟩ else nil

end Uuid
end Credentials
