import Credentials.Regex.Basic
import Credentials.Schema.Number

/-!
# Schemas

A schema is a list of keywords, each of which a document may violate any number of times. References
name other schemas by a pointer into the document that the schema came from.
-/

namespace Credentials

inductive JsonType where
  | null
  | boolean
  | object
  | array
  | number
  | integer
  | string
deriving DecidableEq

namespace JsonType

def ofName? (s : String) : Option JsonType :=
  match s with
  | "null" => some .null
  | "boolean" => some .boolean
  | "object" => some .object
  | "array" => some .array
  | "number" => some .number
  | "integer" => some .integer
  | "string" => some .string
  | _ => none

def admits : JsonType → Json → Bool
  | .null, .null => true
  | .boolean, .bool _ => true
  | .object, .object _ => true
  | .array, .array _ => true
  | .number, .number _ => true
  | .integer, .number l => Schema.isWhole l
  | .string, .string _ => true
  | _, _ => false

end JsonType

mutual
inductive Schema where
  | always
  | never
  | all (keywords : List Keyword)

inductive Keyword where
  | types (ts : List JsonType)
  | enumeration (values : List Json)
  | constant (value : Json)
  | minLength (n : Nat)
  | maxLength (n : Nat)
  | pattern (r : Regex)
  | minimum (l : Bytes)
  | maximum (l : Bytes)
  | exclusiveMinimum (l : Bytes)
  | exclusiveMaximum (l : Bytes)
  | multipleOf (l : Bytes)
  | minItems (n : Nat)
  | maxItems (n : Nat)
  | uniqueItems
  /-- the items after the first `skip` -/
  | items (skip : Nat) (s : Schema)
  | prefixItems (ss : List Schema)
  | contains (s : Schema) (least : Nat) (most : Option Nat)
  | minProperties (n : Nat)
  | maxProperties (n : Nat)
  | required (names : List String)
  | dependentRequired (names : List (String × List String))
  | dependentSchemas (ss : List (String × Schema))
  | properties (ss : List (String × Schema))
  | patternProperties (ss : List (Regex × Schema))
  /-- the members that neither a name nor a pattern covers -/
  | additionalProperties (names : List String) (patterns : List Regex) (s : Schema)
  | propertyNames (s : Schema)
  | anyOf (ss : List Schema)
  | allOf (ss : List Schema)
  | oneOf (ss : List Schema)
  | negation (s : Schema)
  | conditional (test : Schema) (yes no : Option Schema)
  | reference (pointer : String)
  /-- the members that the keywords beside it do not cover -/
  | unevaluatedProperties (others : List Keyword) (s : Schema)
  /-- the items that the keywords beside it do not cover -/
  | unevaluatedItems (others : List Keyword) (s : Schema)
end

instance : Inhabited Schema := ⟨.always⟩

end Credentials
