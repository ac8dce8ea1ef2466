import Credentials.Json.Canonical

/-!
# Documents that are serialized

A document that is serialized into a tree is built anew from its parts: a number is read again from
its spelling, and the members of an object are put in their places one after the other. All that can
fail is a number that has not the spelling of one.
-/

namespace Credentials

namespace Json

def number? (l : Bytes) : Option Json :=
  if isLiteral l then some (.number (literalValue l)) else none

mutual
/-- Whether the numbers of a document have the spelling of one and none is minus zero, as reading and
serializing leave them. -/
def isLexical : Json → Bool
  | .number l => isLiteral l && l != [0x2d, 0x30]
  | .array items => isLexicalItems items
  | .object ms => isLexicalMembers ms
  | _ => true

def isLexicalItems : List Json → Bool
  | [] => true
  | v :: r => isLexical v && isLexicalItems r

def isLexicalMembers : Members → Bool
  | [] => true
  | (_, v) :: r => isLexical v && isLexicalMembers r
end

/-- A document whose numbers are as reading leaves them. -/
structure Lexed where
  value : Json
  isLexical : value.isLexical = true

theorem isLexical_object_nil : (object []).isLexical = true := rfl

def Lexed.empty : Lexed := ⟨.object [], isLexical_object_nil⟩

/-- The document, if its numbers are as reading leaves them. -/
def lexed? (v : Json) : Option Lexed :=
  if h : v.isLexical = true then some ⟨v, h⟩ else none

mutual
/-- The tree into which a document is serialized. -/
def serialized? : Json → Option Json
  | .null => some .null
  | .bool b => some (.bool b)
  | .number l => number? l
  | .string s => some (.string s)
  | .array items => (serializedItems? items).map .array
  | .object ms => (serializedMembers? ms).map ofMembers

def serializedItems? : List Json → Option (List Json)
  | [] => some []
  | v :: r => do
    let v ← serialized? v
    let vs ← serializedItems? r
    return v :: vs

def serializedMembers? : Members → Option Members
  | [] => some []
  | (n, v) :: r => do
    let v ← serialized? v
    let ms ← serializedMembers? r
    return (n, v) :: ms
end

end Json

/-- The canonical bytes of a value, by way of the tree into which it is serialized. -/
def Canonical.ofSerialized (v : Json) : Except CanonicalizationError Canonical :=
  match v.serialized? with
  | none => .error .serializationFailed
  | some u => ofValue u

end Credentials
