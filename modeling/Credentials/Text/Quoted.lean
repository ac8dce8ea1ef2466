import Credentials.Decimal
import Credentials.Hex.Digit
import Credentials.Text.Printable

/-!
# Quoted text in messages

A text between double quotes. Quotes, backslashes and characters that cannot be printed are escaped,
so the quoted text ends at its last quote.
-/

namespace Credentials.Text

/-- Hexadecimal digits without leading zeros, at most `fuel` of them. -/
def hexChars (fuel n : Nat) : List Char :=
  match fuel with
  | 0 => []
  | fuel + 1 =>
    (if n < 16 then [] else hexChars fuel (n / 16)) ++ [Char.ofNat (Hex.digit (n % 16)).toNat]

def escaped (c : Char) : List Char :=
  if c = '"' then ['\\', '"']
  else if c = '\\' then ['\\', '\\']
  else if c = '\n' then ['\\', 'n']
  else if c = '\r' then ['\\', 'r']
  else if c = '\t' then ['\\', 't']
  else if c.toNat = 0 then ['\\', '0']
  else if isPrintable c then [c]
  else ['\\', 'u', '\x7b'] ++ hexChars 6 c.toNat ++ ['\x7d']

def quoted (s : String) : String :=
  String.ofList ('"' :: (s.toList.flatMap escaped ++ ['"']))

end Credentials.Text
