import Credentials.Decimal

/-!
# JSON documents

A number is its spelling, so `1`, `1.0` and `1e0` are three documents. The members of an object are
kept as a list; `Json.normal` brings them into the one order in which a finite map is listed, the
last of two equal names winning.
-/

namespace Credentials

inductive Json where
  | null
  | bool (value : Bool)
  | number (literal : Bytes)
  | string (text : String)
  | array (items : List Json)
  | object (members : List (String × Json))
deriving Inhabited

namespace Json

/-- The members of an object as a finite map listed by ascending name. -/
abbrev Members := List (String × Json)

/-- Puts a member in its place; an equal name is replaced. -/
def insert (name : String) (value : Json) : Members → Members
  | [] => [(name, value)]
  | (n, v) :: r =>
    if name = n then (name, value) :: r
    else if nameBefore name n then (name, value) :: (n, v) :: r
    else (n, v) :: insert name value r

/-- The finite map that a list of members denotes: a later member wins over an earlier one. -/
def membersOf (ms : Members) : Members :=
  ms.foldl (fun acc m => insert m.1 m.2 acc) []

mutual
/-- The document with every object listed as a finite map. -/
def normal : Json → Json
  | .null => .null
  | .bool b => .bool b
  | .number l => .number l
  | .string s => .string s
  | .array items => .array (normalItems items)
  | .object ms => .object (membersOf (normalMembers ms))

def normalItems : List Json → List Json
  | [] => []
  | v :: r => normal v :: normalItems r

def normalMembers : Members → Members
  | [] => []
  | (n, v) :: r => (n, normal v) :: normalMembers r
end

def get? (ms : Members) (name : String) : Option Json :=
  (ms.find? fun m => m.1 = name).map (·.2)

def erase (ms : Members) (name : String) : Members :=
  ms.filter fun m => m.1 ≠ name

def ofMembers (ms : Members) : Json := .object (membersOf ms)

/-- The document without a member of the name. -/
def without (v : Json) (name : String) : Json :=
  match v with
  | .object ms => .object (erase ms name)
  | v => v

def ofInt (i : Int) : Json := .number (Decimal.ofInt i)

def ofNat (n : Nat) : Json := .number (Decimal.ofNat n)

/-- A member that is written only when it is there. -/
def optional (name : String) (value : Option Json) : Members :=
  match value with
  | none => []
  | some v => [(name, v)]

def asString? : Json → Option String
  | .string s => some s
  | _ => none

def asObject? : Json → Option Members
  | .object ms => some ms
  | _ => none

def asArray? : Json → Option (List Json)
  | .array items => some items
  | _ => none

def isNull : Json → Bool
  | .null => true
  | _ => false

mutual
/-- How many arrays and objects are open at the innermost place. -/
def depth : Json → Nat
  | .array items => depthItems items + 1
  | .object ms => depthMembers ms + 1
  | _ => 0

def depthItems : List Json → Nat
  | [] => 0
  | v :: r => max (depth v) (depthItems r)

def depthMembers : Members → Nat
  | [] => 0
  | (_, v) :: r => max (depth v) (depthMembers r)
end

end Json
end Credentials
