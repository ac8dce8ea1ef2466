import Credentials.Json.Printer

/-!
# Documents in ASCII

The compact text of a document with every character beyond ASCII as the escapes of its UTF-16 units.
-/

namespace Credentials.Json

def fourDigits (n : Nat) : Bytes :=
  [n / 0x1000 % 16, n / 0x100 % 16, n / 16 % 16, n % 16].map Hex.digit

def unitEscape (n : Nat) : Bytes := 0x5c :: 0x75 :: fourDigits n

def asciiBytes (c : Char) : Bytes :=
  let n := c.toNat
  if n < 0x80 then [UInt8.ofNat n]
  else if n < 0x10000 then unitEscape n
  else unitEscape (0xd800 + (n - 0x10000) / 0x400) ++ unitEscape (0xdc00 + (n - 0x10000) % 0x400)

def printAscii (v : Json) : String :=
  Bytes.asciiText (((Bytes.text? v.print).getD "").toList.flatMap asciiBytes)

end Credentials.Json
