import Credentials.Hex.Digit
import Credentials.Json.Basic

/-!
# Pointers into a document

A pointer is a number sign and steps, each a slash and the name of a member or the place of an item.
In a step `~1` stands for a slash and `~0` for a tilde; percent signs escape bytes throughout. A
number sign and a name stand for the part that carries the name as an anchor.
-/

namespace Credentials.Json

/-- Resolves percent escapes; a percent sign without two digits stands for itself. -/
def unescapePercent : Bytes → Bytes
  | 0x25 :: a :: b :: r =>
    match Hex.digitValue? a, Hex.digitValue? b with
    | some x, some y => UInt8.ofNat (16 * x + y) :: unescapePercent r
    | _, _ => 0x25 :: unescapePercent (a :: b :: r)
  | b :: r => b :: unescapePercent r
  | [] => []

def unescapeTilde : Bytes → Bytes
  | 0x7e :: 0x31 :: r => 0x2f :: unescapeTilde r
  | 0x7e :: 0x30 :: r => 0x7e :: unescapeTilde r
  | b :: r => b :: unescapeTilde r
  | [] => []

/-- The place that a step names in an array: digits without leading zeros. -/
def placeOf? (step : Bytes) : Option Nat :=
  if step.head? = some 0x30 ∧ step ≠ [0x30] then none else Decimal.nat? step

def child? (step : Bytes) : Json → Option Json
  | .object ms => (Bytes.text? step).bind (get? ms)
  | .array items => (placeOf? step).bind (items[·]?)
  | _ => none

def follow? (v : Json) : List Bytes → Option Json
  | [] => some v
  | step :: r => (child? (unescapeTilde step) v).bind fun v => follow? v r

/-- The part of a document at the end of the steps of a slash-separated path. -/
def atPath? (v : Json) (path : Bytes) : Option Json :=
  match Bytes.pieces 0x2f path with
  | [] :: steps => follow? v steps
  | _ => none

def isAnchored (name : String) (ms : Members) : Bool :=
  ["$anchor", "$dynamicAnchor"].any fun k => (get? ms k).bind asString? == some name

mutual
/-- The first part of a document that carries a name as an anchor. -/
def anchored? (name : String) : Json → Option Json
  | .object ms => if isAnchored name ms then some (.object ms) else anchoredMember? name ms
  | .array items => anchoredItem? name items
  | _ => none

def anchoredItem? (name : String) : List Json → Option Json
  | [] => none
  | v :: r => (anchored? name v).orElse fun _ => anchoredItem? name r

def anchoredMember? (name : String) : Members → Option Json
  | [] => none
  | (_, v) :: r => (anchored? name v).orElse fun _ => anchoredMember? name r
end

/-- The part of a document that a reference names: the document itself for the empty text, and by an
anchor where the reference is no path. -/
def referenced? (v : Json) (reference : String) : Option Json :=
  match Bytes.ofText reference with
  | [] => some v
  | [0x23] => some v
  | 0x23 :: 0x2f :: path => atPath? v (unescapePercent (0x2f :: path))
  | 0x23 :: name => (Bytes.text? (unescapePercent name)).bind (anchored? · v)
  | _ => none

end Credentials.Json
