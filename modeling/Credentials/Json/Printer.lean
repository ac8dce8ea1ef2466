import Credentials.Json.Written

/-!
# Printing

The compact text of a tree as written, and of a document: no blanks, and in strings an escape only
for the quote, the backslash and the bytes below the blank.
-/

namespace Credentials.Json

def shortLetter? (b : UInt8) : Option UInt8 :=
  if b = 0x22 then some 0x22
  else if b = 0x5c then some 0x5c
  else if b = 0x08 then some 0x62
  else if b = 0x0c then some 0x66
  else if b = 0x0a then some 0x6e
  else if b = 0x0d then some 0x72
  else if b = 0x09 then some 0x74
  else none

/-- How a byte of a text is written inside quotes. -/
def pieceOf (b : UInt8) : Piece :=
  match shortLetter? b with
  | some _ => .short b
  | none => if b < 0x20 then .code b.toNat else .plain b

def piecesOf (s : String) : List Piece := (Bytes.ofText s).map pieceOf

def Piece.spelling : Piece → Bytes
  | .plain b => [b]
  | .short b => [0x5c, (shortLetter? b).getD b]
  | .code u =>
    [0x5c, 0x75, Hex.digit (u / 0x1000 % 16), Hex.digit (u / 0x100 % 16), Hex.digit (u / 16 % 16),
     Hex.digit (u % 16)]

def quoted (ps : List Piece) : Bytes := 0x22 :: (ps.flatMap Piece.spelling ++ [0x22])

namespace Written

mutual
def print : Written → Bytes
  | .null => [0x6e, 0x75, 0x6c, 0x6c]
  | .bool true => [0x74, 0x72, 0x75, 0x65]
  | .bool false => [0x66, 0x61, 0x6c, 0x73, 0x65]
  | .number l => l
  | .string ps => quoted ps
  | .array items => 0x5b :: (printItems items ++ [0x5d])
  | .object ms => 0x7b :: (printMembers ms ++ [0x7d])

def printItems : List Written → Bytes
  | [] => []
  | [w] => print w
  | w :: r => print w ++ 0x2c :: printItems r

def printMembers : List (List Piece × Written) → Bytes
  | [] => []
  | [(n, w)] => quoted n ++ 0x3a :: print w
  | (n, w) :: r => quoted n ++ 0x3a :: (print w ++ 0x2c :: printMembers r)
end

end Written

mutual
/-- The tree in which a document is written, its members in their order. -/
def written : Json → Written
  | .null => .null
  | .bool b => .bool b
  | .number l => .number l
  | .string s => .string (piecesOf s)
  | .array items => .array (writtenItems items)
  | .object ms => .object (writtenMembers ms)

def writtenItems : List Json → List Written
  | [] => []
  | v :: r => written v :: writtenItems r

def writtenMembers : Members → List (List Piece × Written)
  | [] => []
  | (n, v) :: r => (piecesOf n, written v) :: writtenMembers r
end

def print (v : Json) : Bytes := v.written.print

end Credentials.Json
