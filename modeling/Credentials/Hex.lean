import Credentials.Hex.Digit
import Credentials.Text.Blank

/-!
# Hexadecimal text

Bytes as two lowercase digits each. Reading trims blank characters, takes digits of either case, and
takes a plus sign in place of a first digit.
-/

namespace Credentials

inductive HexError where
  | oddLength (length : Nat)
  /-- a character straddles a pair -/
  | splitCharacter (position : Nat)
  | invalidDigit (position : Nat)
deriving DecidableEq

namespace HexError

def message : HexError → String
  | .oddLength n => s!"hex string has odd length: {n}"
  | .splitCharacter i => s!"invalid hex at position {i}"
  | .invalidDigit i => s!"invalid hex at position {i}: invalid digit found in string"

end HexError

namespace Hex

def encode (b : Bytes) : String := Bytes.asciiText (digits b)

/-- The value of a pair of digits; a plus sign may stand first. -/
def pair? (a b : UInt8) : Option UInt8 :=
  if a = 0x2b then (digitValue? b).map UInt8.ofNat
  else match digitValue? a, digitValue? b with
    | some x, some y => some (UInt8.ofNat (16 * x + y))
    | _, _ => none

/-- Whether a byte continues a character that an earlier byte began. -/
def continues (b : UInt8) : Bool := 0x80 ≤ b && b < 0xc0

def pairsFrom (position : Nat) : Bytes → Except HexError Bytes
  | [] => .ok []
  | [_] => .error (.splitCharacter position)
  | a :: b :: r =>
    if continues a || (r.head?.any continues) then .error (.splitCharacter position)
    else match pair? a b with
      | none => .error (.invalidDigit position)
      | some x => (pairsFrom (position + 2) r).map (x :: ·)

def decode (s : String) : Except HexError Bytes :=
  let b := Bytes.ofText (Text.trim s)
  if b.length % 2 = 0 then pairsFrom 0 b else .error (.oddLength b.length)

def lowercase (s : String) : Bytes := (Bytes.ofText s).map Bytes.small

/-- Whether two hexadecimal texts agree but for the case of letters. -/
def agree (a b : String) : Bool := lowercase a == lowercase b

end Hex
end Credentials
