import Credentials.Json.Printer
import Credentials.Schema.Basic

/-!
# Violations of a schema

How often a document violates a schema: once for each keyword that fails, except that keywords which
hand parts of the document to other schemas add up what these report.
-/

namespace Credentials.Schema

def sameNumber (a b : Bytes) : Bool := a == b || related fractionEq a b

mutual
/-- Whether two documents in normal form have the same value, numbers being compared as numbers. -/
def sameValue : Json → Json → Bool
  | .null, .null => true
  | .bool a, .bool b => a == b
  | .number a, .number b => sameNumber a b
  | .string a, .string b => a == b
  | .array a, .array b => sameItems a b
  | .object a, .object b => sameMembers a b
  | _, _ => false

def sameItems : List Json → List Json → Bool
  | [], [] => true
  | a :: as, b :: bs => sameValue a b && sameItems as bs
  | _, _ => false

def sameMembers : Json.Members → Json.Members → Bool
  | [], [] => true
  | (n, a) :: as, (m, b) :: bs => n == m && sameValue a b && sameMembers as bs
  | _, _ => false
end

def allDistinct (same : Json → Json → Bool) : List Json → Bool
  | [] => true
  | v :: r => !r.any (same v) && allDistinct same r

/-- Whether no item occurs twice. In lists of more than fifteen items numbers are compared by their
spelling. -/
def isUnique (items : List Json) : Bool :=
  if items.length ≤ 15 then allDistinct sameValue items
  else allDistinct (fun a b => a.print == b.print) items

/-- A constant is compared with a number within `2 ^ -52`, and with all else by its value. -/
def isConstant (value v : Json) : Bool :=
  match value, v with
  | .number a, .number b => isNear a b
  | _, _ => sameValue value v

def total (ns : List Nat) : Nat := ns.foldr (· + ·) 0

def once (failed : Bool) : Nat := if failed then 1 else 0

def onText (v : Json) (failed : String → Bool) : Nat :=
  match v with
  | .string s => once (failed s)
  | _ => 0

def onNumber (v : Json) (failed : Bytes → Bool) : Nat :=
  match v with
  | .number l => once (failed l)
  | _ => 0

def onItems (v : Json) (count : List Json → Nat) : Nat :=
  match v with
  | .array items => count items
  | _ => 0

def onMembers (v : Json) (count : Json.Members → Nat) : Nat :=
  match v with
  | .object ms => count ms
  | _ => 0

def has (ms : Json.Members) (name : String) : Bool := (Json.get? ms name).isSome

/-- A part of a document: a member of an object, or an item of an array by its place. -/
inductive Part where
  | member (name : String)
  | item (place : Nat) (value : Json)

def placed (items : List Json) : List (Nat × Json) := (List.range items.length).zip items

/-- Whether a keyword of its own looks at a part. -/
def looksAt (violations : Schema → Json → Nat) : Part → Keyword → Bool
  | .member n, .properties ss => ss.any (·.1 = n)
  | .member n, .patternProperties ss => ss.any (·.1.matches? n)
  | .member _, .additionalProperties _ _ _ => true
  | .member _, .unevaluatedProperties _ _ => true
  | .item i _, .prefixItems ss => i < ss.length
  | .item _ _, .items _ _ => true
  | .item _ x, .contains s _ _ => violations s x == 0
  | .item _ _, .unevaluatedItems _ _ => true
  | _, _ => false

/-- Whether a keyword covers a part of a document, by itself or through schemas that the document
does not violate; the last argument tells which schemas cover the part. -/
def keywordCovers (violations : Schema → Json → Nat) (resolve : String → Option Schema) (v : Json)
    (part : Part) (covers : Schema → Bool) : Keyword → Bool
  | .allOf ss => ss.any fun s => violations s v == 0 && covers s
  | .anyOf ss => ss.any fun s => violations s v == 0 && covers s
  | .oneOf ss => ss.any fun s => violations s v == 0 && covers s
  | .conditional test yes no =>
    if violations test v == 0 then covers test || yes.any covers else no.any covers
  | .dependentSchemas ss => ss.any fun (n, s) => v.asObject?.any (has · n) && covers s
  | .reference p => (resolve p).any covers
  | k => looksAt violations part k

/-- Whether a schema covers a part of a document, followed through `n` levels of schemas. -/
def covers (violations : Schema → Json → Nat) (resolve : String → Option Schema) (v : Json)
    (part : Part) : Nat → Schema → Bool
  | n + 1, .all ks =>
    ks.any (keywordCovers violations resolve v part (covers violations resolve v part n))
  | _, _ => false

/-- The violations of one keyword, given those of other schemas and of references, and which parts
of the document a list of keywords covers. -/
def keywordViolations (violations : Schema → Json → Nat) (reference : String → Json → Nat)
    (covered : List Keyword → Part → Bool) (v : Json) : Keyword → Nat
  | .types ts => once (!ts.any (·.admits v))
  | .enumeration values => once (!values.any (sameValue v))
  | .constant value => once (!isConstant value v)
  | .minLength n => onText v fun s => s.length < n
  | .maxLength n => onText v fun s => n < s.length
  | .pattern r => onText v fun s => !r.matches? s
  | .minimum l => onNumber v fun x => related fractionLt x l
  | .maximum l => onNumber v fun x => related fractionLt l x
  | .exclusiveMinimum l => onNumber v fun x => !related fractionLt l x
  | .exclusiveMaximum l => onNumber v fun x => !related fractionLt x l
  | .multipleOf l => onNumber v fun x => !isMultiple l x
  | .minItems n => onItems v fun items => once (items.length < n)
  | .maxItems n => onItems v fun items => once (n < items.length)
  | .uniqueItems => onItems v fun items => once (!isUnique items)
  | .items skip s => onItems v fun items => total ((items.drop skip).map (violations s))
  | .prefixItems ss => onItems v fun items => total (ss.zipWith violations items)
  | .contains s least most => onItems v fun items =>
    let n := (items.filter fun x => violations s x == 0).length
    once (n < least || most.any (· < n))
  | .minProperties n => onMembers v fun ms => once (ms.length < n)
  | .maxProperties n => onMembers v fun ms => once (n < ms.length)
  | .required names => onMembers v fun ms => (names.filter fun n => !has ms n).length
  | .dependentRequired names => onMembers v fun ms =>
    total (names.map fun (n, others) =>
      if has ms n then (others.filter fun o => !has ms o).length else 0)
  | .dependentSchemas ss => onMembers v fun ms =>
    total (ss.map fun (n, s) => if has ms n then violations s v else 0)
  | .properties ss => onMembers v fun ms =>
    total (ss.map fun (n, s) => ((Json.get? ms n).map (violations s)).getD 0)
  | .patternProperties ss => onMembers v fun ms =>
    total (ss.map fun (r, s) =>
      total (ms.map fun (n, x) => if r.matches? n then violations s x else 0))
  | .additionalProperties names patterns s => onMembers v fun ms =>
    let rest := ms.filter fun (n, _) => !names.contains n && !patterns.any (·.matches? n)
    match s with
    | .never => once (!rest.isEmpty)
    | s => total (rest.map fun (_, x) => violations s x)
  | .propertyNames s => onMembers v fun ms =>
    match s with
    | .never => once (!ms.isEmpty)
    | s => total (ms.map fun (n, _) => violations s (.string n))
  | .anyOf ss => once (!ss.any fun s => violations s v == 0)
  | .allOf ss => total (ss.map fun s => violations s v)
  | .oneOf ss => once ((ss.filter fun s => violations s v == 0).length != 1)
  | .negation s => once (violations s v == 0)
  | .conditional test yes no =>
    match (if violations test v == 0 then yes else no) with
    | some s => violations s v
    | none => 0
  | .reference p => reference p v
  | .unevaluatedProperties ks s => onMembers v fun ms =>
    once (ms.any fun (n, x) => !covered ks (.member n) && violations s x != 0)
  | .unevaluatedItems ks s => onItems v fun items =>
    once ((placed items).any fun (i, x) => !covered ks (.item i x) && violations s x != 0)

/-- The violations of a schema with `n` levels of schemas, references counted. -/
def violations (resolve : String → Option Schema) : Nat → Schema → Json → Nat
  | _, .always, _ => 0
  | _, .never, _ => 1
  | 0, .all _, _ => 0
  | n + 1, .all ks, v =>
    total (ks.map (keywordViolations (violations resolve n)
      (fun p v => ((resolve p).map fun s => violations resolve n s v).getD 0)
      (fun ks part => covers (violations resolve n) resolve v part (n + 1) (.all ks)) v))

end Credentials.Schema
