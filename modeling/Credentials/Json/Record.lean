import Credentials.Json.Printer

/-!
# Reading records

A record is read from an object, whose unknown members are passed over without being understood and
whose known members stand at most once, or from an array that lists the fields in their order.
-/

namespace Credentials.Json

namespace Written

def text? : Written → Option String
  | .string ps => textOf? ps
  | _ => none

def bool? : Written → Option Bool
  | .bool b => some b
  | _ => none

def natBelow? (bound : Nat) : Written → Option Nat
  | .number l => (Decimal.nat? l).filter (· < bound)
  | _ => none

/-- One of a closed list of names: a string, or an object that gives the name the value null. -/
def tag? : Written → Option String
  | .string ps => textOf? ps
  | .object [(n, .null)] => textOf? n
  | _ => none

def nullable {α : Type} (decode : Written → Option α) : Written → Option (Option α)
  | .null => some none
  | w => (decode w).map some

def list? {α : Type} (decode : Written → Option α) : Written → Option (List α)
  | .array items => items.mapM decode
  | _ => none

/-- The members of an object as a finite map, each nesting at most `n` deep. -/
def membersWithin (n : Nat) : Written → Option Members
  | .object ms => (resolveMembers n ms).map fun r => membersOf (normalMembers r)
  | _ => none

end Written

structure Record where
  /-- whether the fields were listed in an array -/
  positional : Bool
  fields : List (String × Written)

namespace Record

/-- The members with a known name; every name has to be text. -/
def known (names : List String) : List (List Piece × Written) → Option (List (String × Written))
  | [] => some []
  | (ps, w) :: r =>
    match textOf? ps, known names r with
    | some n, some fields =>
      if n ∈ names then
        if fields.any (·.1 = n) then none else some ((n, w) :: fields)
      else some fields
    | _, _ => none

def read (names : List String) : Written → Option Record
  | .object ms => (known names ms).map fun fields => ⟨false, fields⟩
  | .array items => if items.length ≤ names.length then some ⟨true, names.zip items⟩ else none
  | _ => none

def get? (r : Record) (name : String) : Option Written :=
  (r.fields.find? (·.1 = name)).map (·.2)

variable {α : Type}

def required (r : Record) (name : String) (decode : Written → Option α) : Option α :=
  (r.get? name).bind decode

/-- A field that has a value of its own when it is left out. -/
def defaulted (r : Record) (name : String) (value : α) (decode : Written → Option α) : Option α :=
  match r.get? name with
  | some w => decode w
  | none => some value

/-- A field that may be null, and that an object may leave out. -/
def optional (r : Record) (name : String) (decode : Written → Option α) : Option (Option α) :=
  match r.get? name with
  | some w => Written.nullable decode w
  | none => if r.positional then none else some none

end Record

def readText {α : Type} (decode : Written → Option α) (s : Bytes) : Option α :=
  (Written.read s).bind decode

/-- Reads a value from a document, through the text in which it is written. -/
def readJson {α : Type} (decode : Written → Option α) (v : Json) : Option α := decode v.written

end Credentials.Json
