import Credentials.Regex.Parser
import Credentials.Schema.Shape

/-!
# Reading schemas

Each part of a document is read at once as a schema, as a list of schemas and as schemas under names,
so that a keyword can take what it needs from the readings of its own value and of its neighbours.
-/

namespace Credentials.Schema

/-- A schema, with the references in it. -/
structure Referring where
  schema : Schema
  references : List String

structure Reading where
  value : Json
  schema? : Option Referring
  list? : Option (List Referring)
  named? : Option (List (String × Referring))

namespace Reading

def texts? (v : Json) : Option (List String) :=
  v.asArray?.bind fun items => items.mapM Json.asString?

def types? : Json → Option (List JsonType)
  | .string s => (JsonType.ofName? s).map ([·])
  | .array items => items.mapM fun v => v.asString?.bind JsonType.ofName?
  | _ => none

def number? : Json → Option Bytes
  | .number l => some l
  | _ => none

def natural? (v : Json) : Option Nat := (number? v).bind Schema.natural?

def regex? (v : Json) : Option Regex := v.asString?.bind Regex.parse?

def patterns? (r : Reading) : Option (List Regex) :=
  r.named?.bind fun ss => ss.mapM fun s => Regex.parse? s.1

def find? (rs : List (String × Reading)) (name : String) : Option Reading :=
  (rs.find? (·.1 = name)).map (·.2)

abbrev Entry := List Keyword × List String

def plain (k : Option Keyword) : Option Entry := k.map fun k => ([k], [])

def withOne (r : Option Referring) (k : Schema → Keyword) : Option Entry :=
  r.map fun s => ([k s.schema], s.references)

def withList (rs : Option (List Referring)) (k : List Schema → Keyword) : Option Entry :=
  rs.map fun ss => ([k (ss.map (·.schema))], ss.flatMap (·.references))

def withNamed (rs : Option (List (String × Referring))) (k : List (String × Schema) → Keyword) :
    Option Entry :=
  rs.map fun ss => ([k (ss.map fun s => (s.1, s.2.schema))], ss.flatMap (·.2.references))

/-- The branch under a name; a name that is not there stands for no branch. -/
def branch? (rs : List (String × Reading)) (name : String) : Option (Option Referring) :=
  match find? rs name with
  | none => some none
  | some r => r.schema?.map some

def conditional (rs : List (String × Reading)) (test : Reading) : Option Entry := do
  let yes ← branch? rs "then"
  let no ← branch? rs "else"
  if yes.isNone && no.isNone then return ([], [])
  let test ← test.schema?
  return ([.conditional test.schema (yes.map (·.schema)) (no.map (·.schema))],
    test.references ++ (yes.map (·.references)).getD [] ++ (no.map (·.references)).getD [])

def contains (rs : List (String × Reading)) (r : Reading) : Option Entry := do
  let least ← match find? rs "minContains" with
    | none => some 1
    | some m => natural? m.value
  let most ← match find? rs "maxContains" with
    | none => some none
    | some m => (natural? m.value).map some
  withOne r.schema? fun s => .contains s least most

/-- The members that `additionalProperties` leaves to its neighbours. -/
def additional (rs : List (String × Reading)) (r : Reading) : Option Entry := do
  let names := match (find? rs "properties").map (·.value) with
    | some (.object ms) => ms.map (·.1)
    | _ => []
  let patterns ← match find? rs "patternProperties" with
    | none => some []
    | some p => p.patterns?
  withOne r.schema? (.additionalProperties names patterns)

def patternProperties (r : Reading) : Option Entry := do
  let patterns ← r.patterns?
  withNamed r.named? fun ss => .patternProperties (patterns.zip (ss.map (·.2)))

def dependentRequired (v : Json) : Option Entry :=
  plain ((v.asObject?.bind fun ms => ms.mapM fun m => (texts? m.2).map (m.1, ·)).map
    .dependentRequired)

def entry (rs : List (String × Reading)) (name : String) (r : Reading) : Option Entry :=
  let v := r.value
  match name with
  | "$ref" => v.asString?.map fun p => ([.reference p], [p])
  | "$dynamicRef" => v.asString?.map fun p => ([.reference p], [p])
  | "type" => plain ((types? v).map .types)
  | "enum" => plain (v.asArray?.map .enumeration)
  | "const" => plain (some (.constant v))
  | "minLength" => plain ((natural? v).map .minLength)
  | "maxLength" => plain ((natural? v).map .maxLength)
  | "pattern" => plain ((regex? v).map .pattern)
  | "minimum" => plain ((number? v).map .minimum)
  | "maximum" => plain ((number? v).map .maximum)
  | "exclusiveMinimum" => plain ((number? v).map .exclusiveMinimum)
  | "exclusiveMaximum" => plain ((number? v).map .exclusiveMaximum)
  | "multipleOf" => plain ((number? v).map .multipleOf)
  | "minItems" => plain ((natural? v).map .minItems)
  | "maxItems" => plain ((natural? v).map .maxItems)
  | "uniqueItems" =>
    match v with
    | .bool true => some ([.uniqueItems], [])
    | .bool false => some ([], [])
    | _ => none
  | "items" =>
    let skip := match (find? rs "prefixItems").map (·.value) with
      | some (.array items) => items.length
      | _ => 0
    withOne r.schema? (.items skip)
  | "prefixItems" => withList r.list? .prefixItems
  | "contains" => contains rs r
  | "minProperties" => plain ((natural? v).map .minProperties)
  | "maxProperties" => plain ((natural? v).map .maxProperties)
  | "required" => plain ((texts? v).map .required)
  | "dependentRequired" => dependentRequired v
  | "dependentSchemas" => withNamed r.named? .dependentSchemas
  | "properties" => withNamed r.named? .properties
  | "patternProperties" => patternProperties r
  | "additionalProperties" => additional rs r
  | "propertyNames" => withOne r.schema? .propertyNames
  | "anyOf" => withList r.list? .anyOf
  | "allOf" => withList r.list? .allOf
  | "oneOf" => withList r.list? .oneOf
  | "not" => withOne r.schema? .negation
  | "if" => conditional rs r
  | _ => some ([], [])

def entries (all : List (String × Reading)) : List (String × Reading) → Option Entry
  | [] => some ([], [])
  | (n, r) :: rest => do
    let (ks, ps) ← entry all n r
    let (ks', ps') ← entries all rest
    return (ks ++ ks', ps ++ ps')

/-- A keyword that is about what the keywords beside it leave over. -/
def leftover (rs : List (String × Reading)) (name : String) (k : Schema → Keyword) : Option Entry :=
  match find? rs name with
  | none => some ([], [])
  | some r => withOne r.schema? k

/-- The schema whose members have these readings. -/
def ofMembers (rs : List (String × Reading)) : Option Referring := do
  let (ks, ps) ← entries rs rs
  let (names, ps') ← leftover rs "unevaluatedProperties" (.unevaluatedProperties ks)
  let (items, ps'') ← leftover rs "unevaluatedItems" (.unevaluatedItems ks)
  return ⟨.all (ks ++ names ++ items), ps ++ ps' ++ ps''⟩

mutual
def ofJson : Json → Reading
  | .bool true => ⟨.bool true, some ⟨.always, []⟩, none, none⟩
  | .bool false => ⟨.bool false, some ⟨.never, []⟩, none, none⟩
  | .array items =>
    ⟨.array items, none, (ofItems items).mapM (·.schema?), none⟩
  | .object ms =>
    let rs := ofMemberList ms
    ⟨.object ms, ofMembers rs, none, rs.mapM fun r => r.2.schema?.map (r.1, ·)⟩
  | v => ⟨v, none, none, none⟩

def ofItems : List Json → List Reading
  | [] => []
  | v :: r => ofJson v :: ofItems r

def ofMemberList : Json.Members → List (String × Reading)
  | [] => []
  | (n, v) :: r => (n, ofJson v) :: ofMemberList r
end

end Reading

def referring? (v : Json) : Option Referring := (Reading.ofJson v).schema?

end Credentials.Schema
