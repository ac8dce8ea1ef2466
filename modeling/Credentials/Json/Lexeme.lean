import Credentials.Decimal
import Credentials.Hex.Digit

/-!
# Lexemes of JSON text

Text is cut into lexemes from left to right; blanks between them are dropped. Where no lexeme
starts, the rest of the text becomes one unreadable lexeme, so cutting never fails and what follows
a document can be looked at without being read.
-/

namespace Credentials.Json

/-- A piece of a string as written between the quotes. -/
inductive Piece where
  /-- a byte that stands for itself -/
  | plain (byte : UInt8)
  /-- the byte named by a two-character escape -/
  | short (byte : UInt8)
  /-- a UTF-16 unit in four hexadecimal digits -/
  | code (unit : Nat)
deriving DecidableEq

inductive Lexeme where
  | openArray
  | closeArray
  | openObject
  | closeObject
  | comma
  | colon
  | null
  | bool (value : Bool)
  | number (literal : Bytes)
  | string (pieces : List Piece)
  | unreadable
deriving DecidableEq

def isBlank (b : UInt8) : Bool := b == 0x20 || b == 0x09 || b == 0x0a || b == 0x0d

def unit? (a b c d : UInt8) : Option Nat := do
  let a ← Hex.digitValue? a
  let b ← Hex.digitValue? b
  let c ← Hex.digitValue? c
  let d ← Hex.digitValue? d
  return ((a * 16 + b) * 16 + c) * 16 + d

def shortEscape? (e : UInt8) : Option UInt8 :=
  if e = 0x22 then some 0x22
  else if e = 0x5c then some 0x5c
  else if e = 0x2f then some 0x2f
  else if e = 0x62 then some 0x08
  else if e = 0x66 then some 0x0c
  else if e = 0x6e then some 0x0a
  else if e = 0x72 then some 0x0d
  else if e = 0x74 then some 0x09
  else none

/-- The pieces up to the closing quote and the text after it. -/
def scanPieces : Bytes → Option (List Piece × Bytes)
  | [] => none
  | 0x22 :: r => some ([], r)
  | 0x5c :: 0x75 :: a :: b :: c :: d :: r =>
    match unit? a b c d, scanPieces r with
    | some u, some (ps, r) => some (.code u :: ps, r)
    | _, _ => none
  | 0x5c :: e :: r =>
    match shortEscape? e, scanPieces r with
    | some b, some (ps, r) => some (.short b :: ps, r)
    | _, _ => none
  | b :: r =>
    if b < 0x20 ∨ b = 0x5c then none
    else match scanPieces r with
      | some (ps, r) => some (.plain b :: ps, r)
      | none => none

/-- A fraction: nothing, or a point and digits. -/
def fraction : Bytes → Option (Bytes × Bytes)
  | 0x2e :: r =>
    match r.span Decimal.isDigit with
    | ([], _) => none
    | (ds, r) => some (0x2e :: ds, r)
  | r => some ([], r)

def exponentSign : Bytes → Bytes × Bytes
  | 0x2b :: r => ([0x2b], r)
  | 0x2d :: r => ([0x2d], r)
  | r => ([], r)

/-- An exponent: nothing, or `e` or `E`, at most one sign, and digits. -/
def exponent : Bytes → Option (Bytes × Bytes)
  | [] => some ([], [])
  | e :: r =>
    if e = 0x65 ∨ e = 0x45 then
      let (sign, r) := exponentSign r
      match r.span Decimal.isDigit with
      | ([], _) => none
      | (ds, r) => some (e :: (sign ++ ds), r)
    else some ([], e :: r)

/-- Digits without a leading zero, a fraction and an exponent. -/
def magnitude (s : Bytes) : Option (Bytes × Bytes) :=
  match s.span Decimal.isDigit with
  | ([], _) => none
  | (0x30 :: _ :: _, _) => none
  | (ds, r) =>
    match fraction r with
    | none => none
    | some (fs, r) =>
      match exponent r with
      | none => none
      | some (es, r) => some (ds ++ fs ++ es, r)

/-- The longest number literal at the start, and the text after it. -/
def scanNumber : Bytes → Option (Bytes × Bytes)
  | 0x2d :: r => (magnitude r).map fun (l, r) => (0x2d :: l, r)
  | r => magnitude r

def isLiteral (s : Bytes) : Bool :=
  match scanNumber s with
  | some (_, []) => true
  | _ => false

/-- The first lexeme, and what is left of the text. -/
def firstLexeme : Bytes → Lexeme × Bytes
  | 0x5b :: r => (.openArray, r)
  | 0x5d :: r => (.closeArray, r)
  | 0x7b :: r => (.openObject, r)
  | 0x7d :: r => (.closeObject, r)
  | 0x2c :: r => (.comma, r)
  | 0x3a :: r => (.colon, r)
  | 0x6e :: 0x75 :: 0x6c :: 0x6c :: r => (.null, r)
  | 0x74 :: 0x72 :: 0x75 :: 0x65 :: r => (.bool true, r)
  | 0x66 :: 0x61 :: 0x6c :: 0x73 :: 0x65 :: r => (.bool false, r)
  | 0x22 :: r =>
    match scanPieces r with
    | some (ps, r) => (.string ps, r)
    | none => (.unreadable, [])
  | s =>
    match scanNumber s with
    | some (l, r) => (.number l, r)
    | none => (.unreadable, [])

/-- The lexemes of a text; a measure of at least its length always suffices. -/
def lexemesWithin : Nat → Bytes → List Lexeme
  | 0, _ => []
  | n + 1, s =>
    match s.dropWhile isBlank with
    | [] => []
    | b :: r =>
      let (l, rest) := firstLexeme (b :: r)
      l :: lexemesWithin n rest

def lexemes (s : Bytes) : List Lexeme := lexemesWithin s.length s

end Credentials.Json
