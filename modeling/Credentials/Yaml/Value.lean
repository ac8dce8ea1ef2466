import Credentials.Binary64.Shortest
import Credentials.Json.Printer
import Credentials.Yaml.Basic

/-!
# What scalars stand for

A plain scalar may stand for null, a boolean or a number; which of them is asked for decides. A text
is taken from any scalar as it is. In a document every plain scalar stands for the first of null,
boolean, integer, number and text that it can stand for.
-/

namespace Credentials.Yaml

open Json (Written)

def digitsIn? (base : Nat) (b : Bytes) : Option Nat :=
  if b.isEmpty then none
  else b.foldlM (fun n d =>
    ((Hex.digitValue? d).filter (· < base)).map fun v => base * n + v) 0

def marked? : Bytes → Option Nat
  | 0x30 :: 0x78 :: r => digitsIn? 16 r
  | 0x30 :: 0x6f :: r => digitsIn? 8 r
  | 0x30 :: 0x62 :: r => digitsIn? 2 r
  | _ => none

/-- Digits that are no numeral because a zero leads them. -/
def hasLeadingZero : Bytes → Bool
  | 0x30 :: d :: r => (d :: r).all Decimal.isDigit
  | _ => false

def magnitude? (b : Bytes) : Option Nat :=
  match marked? b with
  | some n => some n
  | none => if hasLeadingZero b then none else Decimal.nat? b

/-- A natural; a plus sign may stand before it. -/
def natural? : Bytes → Option Nat
  | 0x2b :: r => magnitude? r
  | b => magnitude? b

def integer? : Bytes → Option Int
  | 0x2d :: r => (magnitude? r).map fun n => -(n : Int)
  | b => (natural? b).map Int.ofNat

/-- Integers that are kept as such; others are only numbers. -/
def keepsInteger (i : Int) : Bool := -(Int.pow 2 127) ≤ i && i < Int.pow 2 128

/-- The part of a numeral from its exponent on is empty or complete. -/
def isExponent : Bytes → Bool
  | [] => true
  | e :: r => (e = 0x65 || e = 0x45) && (Decimal.signed? r).isSome

/-- Digits with at most one point among them, and an exponent. -/
def isUnsignedNumeral (b : Bytes) : Bool :=
  let whole := b.takeWhile Decimal.isDigit
  match b.dropWhile Decimal.isDigit with
  | 0x2e :: r =>
    let places := r.takeWhile Decimal.isDigit
    !(whole ++ places).isEmpty && isExponent (r.dropWhile Decimal.isDigit)
  | r => !whole.isEmpty && isExponent r

def unsignedPart : Bytes → Bytes
  | 0x2d :: r => r
  | 0x2b :: r => r
  | b => b

def finite? (b : Bytes) : Option Binary64 :=
  if isUnsignedNumeral (unsignedPart b) && !hasLeadingZero (unsignedPart b) then
    match Binary64.ofLiteral (if b.head? = some 0x2b then b.tail else b) with
    | .finite negative m e => some (.finite negative m e)
    | _ => none
  else none

def isNonFinite (s : String) : Bool :=
  s ∈ [".inf", ".Inf", ".INF", "+.inf", "+.Inf", "+.INF", "-.inf", "-.Inf", "-.INF",
    ".nan", ".NaN", ".NAN"]

def isNull (s : String) : Bool := s ∈ ["null", "Null", "NULL", "~"]

def boolean? (s : String) : Option Bool :=
  if s ∈ ["true", "True", "TRUE"] then some true
  else if s ∈ ["false", "False", "FALSE"] then some false
  else none

def documentOf (s : String) : Json :=
  let b := Bytes.ofText s
  if s.isEmpty || isNull s then .null
  else match boolean? s with
    | some v => .bool v
    | none =>
      match (integer? b).filter keepsInteger with
      | some i => .ofInt i
      | none =>
        match finite? b with
        | some x => x.json
        | none => if isNonFinite s then .null else .string s

namespace Node

def text? : Node → Option String
  | .scalar _ s => some s
  | _ => none

def bool? : Node → Option Bool
  | .scalar true s => boolean? s
  | _ => none

def natBelow? (bound : Nat) : Node → Option Nat
  | .scalar true s => (natural? (Bytes.ofText s)).filter (· < bound)
  | _ => none

def nullable {α : Type} (decode : Node → Option α) : Node → Option (Option α)
  | .scalar true s => if s.isEmpty || isNull s then some none else (decode (.scalar true s)).map some
  | v => (decode v).map some

/-- The items of a sequence; nothing is the empty one. -/
def list? {α : Type} (decode : Node → Option α) : Node → Option (List α)
  | .sequence items => items.mapM decode
  | .scalar true "" => some []
  | _ => none

mutual
def written : Node → Written
  | .scalar true s => (documentOf s).written
  | .scalar false s => .string (Json.piecesOf s)
  | .sequence items => .array (writtenItems items)
  | .mapping members => .object (writtenMembers members)

def writtenItems : List Node → List Written
  | [] => []
  | v :: r => written v :: writtenItems r

def writtenMembers : List (String × Node) → List (List Json.Piece × Written)
  | [] => []
  | (k, v) :: r => (Json.piecesOf k, written v) :: writtenMembers r
end

def json? (v : Node) : Option Json := v.written.jsonWithin maxDepth

end Node

/-- The fields of a record: the members of a mapping, no field twice. -/
abbrev Fields := List (String × Node)

namespace Fields

/-- Reads a record with these fields; whether it may have others is the caller's to say. -/
def read? (names : List String) (admitsOthers : Bool) : Node → Option Fields
  | .mapping members =>
    let known := members.filter fun m => m.1 ∈ names
    if (known.map (·.1)).Nodup && (admitsOthers || known.length = members.length) then some known
    else none
  | .scalar true "" => some []
  | _ => none

def get? (f : Fields) (name : String) : Option Node := (f.find? fun m => m.1 = name).map (·.2)

variable {α : Type}

def required (f : Fields) (name : String) (decode : Node → Option α) : Option α :=
  (f.get? name).bind decode

def defaulted (f : Fields) (name : String) (value : α) (decode : Node → Option α) : Option α :=
  match f.get? name with
  | some v => decode v
  | none => some value

end Fields
end Credentials.Yaml
