import Credentials.Schema.Pointer
import Credentials.Schema.Reading

/-!
# Schemas of public signals

A compiled schema holds everything that its references name. Compiling fails for a document that is
not shaped as a schema, for a pattern that is no regular expression, and for a dangling reference.
-/

namespace Credentials

structure PublicSignalsSchema where
  root : Schema
  definitions : List (String × Schema)
  /-- levels of schemas between two steps into a document -/
  size : Nat

namespace PublicSignalsSchema

/-- Reads what references name until nothing new is named. -/
def close (document : Json) :
    Nat → List String → List (String × Schema) → Option (List (String × Schema))
  | _, [], done => some done
  | 0, _ :: _, _ => none
  | n + 1, p :: pending, done =>
    if done.any (·.1 = p) then close document n pending done
    else
      match (document.referenced? p).bind Schema.referring? with
      | none => none
      | some r => close document n (r.references ++ pending) ((p, r.schema) :: done)

mutual
def weight : Json → Nat
  | .array items => weightItems items + 1
  | .object ms => weightMembers ms + 1
  | _ => 1

def weightItems : List Json → Nat
  | [] => 0
  | v :: r => weight v + weightItems r

def weightMembers : Json.Members → Nat
  | [] => 0
  | (_, v) :: r => weight v + weightMembers r
end

def compile (document : Json) : Option PublicSignalsSchema :=
  if !Schema.isShaped document then none
  else do
    let root ← Schema.referring? document
    let size := weight document
    let definitions ← close document (size * size + size) root.references []
    return ⟨root.schema, definitions, size⟩

def resolve (s : PublicSignalsSchema) (pointer : String) : Option Schema :=
  (s.definitions.find? (·.1 = pointer)).map (·.2)

def violations (s : PublicSignalsSchema) (v : Json) : Nat :=
  Schema.violations s.resolve ((s.size + 1) * (v.depth + 2)) s.root v

/-- The description of a compiled schema, which shows nothing of it. -/
def describe (_ : PublicSignalsSchema) : String := "PublicSignalsSchema(..)"

end PublicSignalsSchema
end Credentials
