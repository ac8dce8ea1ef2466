import Credentials.Schema.Check

/-!
# The shape of schemas

The schema that a document must meet to be a schema: which type each keyword takes and where further
schemas stand. Schemas are closed, so a reference points into its own document.
-/

namespace Credentials.Schema

namespace Shape

def anchorStart : CharSet := CharSet.ofRanges [(0x41, 0x5a), (0x5f, 0x5f), (0x61, 0x7a)]

def anchorRest : CharSet := CharSet.ofRanges [(0x2d, 0x2e), (0x30, 0x39), (0x41, 0x5a), (0x5f, 0x5f), (0x61, 0x7a)]

def hash : CharSet := CharSet.single '#'

def whole (r : Regex) : Regex := .cat .textStart (.cat r .textEnd)

/-- A letter or underscore, and letters, digits, underscores, hyphens and points. -/
def anchorPattern : Regex := whole (.cat (.set anchorStart) (.star (.set anchorRest)))

/-- A text in which a number sign can only stand last. -/
def identifierPattern : Regex := whole (.cat (.star (.set (.compl hash))) (Regex.upTo (.set hash) 1))

/-- The empty text, or one that begins with a number sign. -/
def referencePattern : Regex := .cat .textStart (.alt .textEnd (.set hash))

def ofType (t : JsonType) : Schema := .all [.types [t]]

def text : Schema := ofType .string

def textLike (r : Regex) : Schema := .all [.types [.string], .pattern r]

def flag : Schema := ofType .boolean

def number : Schema := ofType .number

def schema : Schema := .all [.reference "schema"]

def schemas : Schema := .all [.types [.array], .minItems 1, .items 0 schema]

def named (s : Schema) : Schema := .all [.types [.object], .additionalProperties [] [] s]

def natural : Schema := .all [.types [.integer], .minimum [0x30]]

def texts : Schema := .all [.types [.array], .items 0 text, .uniqueItems]

def typeName : Schema :=
  .all [.enumeration (["array", "boolean", "integer", "null", "number", "object", "string"].map
    Json.string)]

def typeNames : Schema :=
  .all [.anyOf [typeName, .all [.types [.array], .items 0 typeName, .minItems 1, .uniqueItems]]]

def positive : Schema := .all [.types [.number], .exclusiveMinimum [0x30]]

def keywords : List (String × Schema) :=
  [("$id", textLike identifierPattern), ("$schema", text), ("$ref", textLike referencePattern),
    ("$anchor", textLike anchorPattern), ("$dynamicRef", text),
    ("$dynamicAnchor", textLike anchorPattern), ("$vocabulary", named flag), ("$comment", text),
    ("$defs", named schema), ("definitions", named schema),
    ("prefixItems", schemas), ("items", schema), ("contains", schema),
    ("additionalProperties", schema), ("properties", named schema),
    ("patternProperties", named schema), ("dependentSchemas", named schema),
    ("propertyNames", schema), ("if", schema), ("then", schema), ("else", schema),
    ("allOf", schemas), ("anyOf", schemas), ("oneOf", schemas), ("not", schema),
    ("unevaluatedItems", schema), ("unevaluatedProperties", schema),
    ("type", typeNames), ("enum", ofType .array), ("multipleOf", positive), ("maximum", number),
    ("exclusiveMaximum", number), ("minimum", number), ("exclusiveMinimum", number),
    ("maxLength", natural), ("minLength", natural), ("pattern", text), ("maxItems", natural),
    ("minItems", natural), ("uniqueItems", flag), ("maxContains", natural),
    ("minContains", natural), ("maxProperties", natural), ("minProperties", natural),
    ("required", texts), ("dependentRequired", named texts),
    ("title", text), ("description", text), ("deprecated", flag), ("readOnly", flag),
    ("writeOnly", flag), ("examples", ofType .array), ("format", text),
    ("contentEncoding", text), ("contentMediaType", text), ("contentSchema", schema)]

def resolve (pointer : String) : Option Schema :=
  if pointer = "schema" then some (.all [.types [.object, .boolean], .properties keywords])
  else none

/-- The levels of schemas that checking a document of a given depth can pass through. -/
def levels (depth : Nat) : Nat := 4 * (depth + 2)

end Shape

def isShaped (v : Json) : Bool := violations Shape.resolve (Shape.levels v.depth) Shape.schema v == 0

end Credentials.Schema
