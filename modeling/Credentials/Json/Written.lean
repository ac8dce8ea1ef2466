import Credentials.Json.Basic
import Credentials.Json.Lexeme

/-!
# Documents as written

The tree of a text: strings keep their escapes, members their order and repetitions. It is read by a
machine with a stack of open arrays and objects, one lexeme a step, so the depth of a text costs no
recursion. What a tree means as a document is `Written.json`: escapes are resolved, nesting is
limited, and the last of two equal names wins.
-/

namespace Credentials.Json

inductive Written where
  | null
  | bool (value : Bool)
  | number (literal : Bytes)
  | string (pieces : List Piece)
  | array (items : List Written)
  | object (members : List (List Piece × Written))
deriving Inhabited

namespace Written

/-- An array or object that is still open, with what it holds so far in reverse. -/
inductive Frame where
  | array (done : List Written)
  | object (done : List (List Piece × Written)) (name : List Piece)

inductive State where
  /-- a document must follow -/
  | value (frames : List Frame)
  /-- a document or the end of the array must follow -/
  | firstItem (frames : List Frame)
  /-- a name or the end of the object must follow -/
  | firstName (frames : List Frame)
  /-- a name must follow -/
  | name (frames : List Frame) (done : List (List Piece × Written))
  /-- a colon must follow -/
  | colon (frames : List Frame) (done : List (List Piece × Written)) (name : List Piece)
  /-- a document is complete -/
  | complete (frames : List Frame) (value : Written)

/-- The step for a lexeme with which a document starts. -/
def start (fs : List Frame) : Lexeme → Option State
  | .null => some (.complete fs .null)
  | .bool b => some (.complete fs (.bool b))
  | .number l => some (.complete fs (.number l))
  | .string ps => some (.complete fs (.string ps))
  | .openArray => some (.firstItem fs)
  | .openObject => some (.firstName fs)
  | _ => none

def step : State → Lexeme → Option State
  | .value fs, l => start fs l
  | .firstItem fs, .closeArray => some (.complete fs (.array []))
  | .firstItem fs, l => start (.array [] :: fs) l
  | .firstName fs, .closeObject => some (.complete fs (.object []))
  | .firstName fs, .string n => some (.colon fs [] n)
  | .firstName _, _ => none
  | .name fs done, .string n => some (.colon fs done n)
  | .name _ _, _ => none
  | .colon fs done n, .colon => some (.value (.object done n :: fs))
  | .colon _ _ _, _ => none
  | .complete (.array done :: fs) v, .comma => some (.value (.array (v :: done) :: fs))
  | .complete (.array done :: fs) v, .closeArray =>
    some (.complete fs (.array (v :: done).reverse))
  | .complete (.object done n :: fs) v, .comma => some (.name fs ((n, v) :: done))
  | .complete (.object done n :: fs) v, .closeObject =>
    some (.complete fs (.object ((n, v) :: done).reverse))
  | .complete _ _, _ => none

/-- Runs the machine until a document is complete with nothing left open. -/
def run : State → List Lexeme → Option (Written × List Lexeme)
  | .complete [] v, ls => some (v, ls)
  | _, [] => none
  | s, l :: ls =>
    match step s l with
    | none => none
    | some s => run s ls

/-- The first document of a text and the lexemes after it. -/
def first (s : Bytes) : Option (Written × List Lexeme) := run (.value []) (lexemes s)

/-- The document of a text that holds nothing else. -/
def read (s : Bytes) : Option Written :=
  match first s with
  | some (w, []) => some w
  | _ => none

end Written

def isHighSurrogate (u : Nat) : Bool := 0xd800 ≤ u && u < 0xdc00

def isLowSurrogate (u : Nat) : Bool := 0xdc00 ≤ u && u < 0xe000

/-- The bytes that pieces stand for; a surrogate counts only as half of a pair. -/
def bytesOf : List Piece → Option Bytes
  | [] => some []
  | .plain b :: r => (bytesOf r).map (b :: ·)
  | .short b :: r => (bytesOf r).map (b :: ·)
  | .code h :: .code l :: r =>
    if isHighSurrogate h then
      if isLowSurrogate l then
        (bytesOf r).map
          (String.utf8EncodeChar (Char.ofNat (0x10000 + (h - 0xd800) * 0x400 + (l - 0xdc00))) ++ ·)
      else none
    else if isLowSurrogate h then none
    else (bytesOf (.code l :: r)).map (String.utf8EncodeChar (Char.ofNat h) ++ ·)
  | .code u :: r =>
    if isHighSurrogate u || isLowSurrogate u then none
    else (bytesOf r).map (String.utf8EncodeChar (Char.ofNat u) ++ ·)

def textOf? (ps : List Piece) : Option String := (bytesOf ps).bind Bytes.text?

/-- The value of a number token; minus zero is read as zero. -/
def literalValue (l : Bytes) : Bytes := if l = [0x2d, 0x30] then [0x30] else l

/-- An object whose first member has this name (here in UTF-8) stands for the number that the
member spells as a string, and may hold nothing else. -/
def numberName : Bytes :=
  [0x24, 0x73, 0x65, 0x72, 0x64, 0x65, 0x5f, 0x6a, 0x73, 0x6f, 0x6e, 0x3a, 0x3a, 0x70, 0x72, 0x69,
   0x76, 0x61, 0x74, 0x65, 0x3a, 0x3a, 0x4e, 0x75, 0x6d, 0x62, 0x65, 0x72]

def spelledNumber? : List (List Piece × Written) → Option Json
  | [(_, .string ps)] =>
    match bytesOf ps with
    | some l => if isLiteral l then some (.number (literalValue l)) else none
    | none => none
  | _ => none

def startsWithNumberName : List (List Piece × Written) → Bool
  | (n, _) :: _ => bytesOf n == some numberName
  | [] => false

/-- Arrays and objects nest at most this deep in a document. -/
def maxDepth : Nat := 127

namespace Written

mutual
/-- The tree with its strings resolved, if it nests at most `n` deep. -/
def resolve (n : Nat) : Written → Option Json
  | .null => some .null
  | .bool b => some (.bool b)
  | .number l => some (.number (literalValue l))
  | .string ps => (textOf? ps).map .string
  | .array items =>
    match n with
    | 0 => none
    | n + 1 => (resolveItems n items).map .array
  | .object ms =>
    match n with
    | 0 => none
    | n + 1 =>
      if startsWithNumberName ms then spelledNumber? ms
      else (resolveMembers n ms).map .object

def resolveItems (n : Nat) : List Written → Option (List Json)
  | [] => some []
  | w :: r => do
    let v ← resolve n w
    let vs ← resolveItems n r
    return v :: vs

def resolveMembers (n : Nat) : List (List Piece × Written) → Option Json.Members
  | [] => some []
  | (ps, w) :: r => do
    let name ← textOf? ps
    let v ← resolve n w
    let ms ← resolveMembers n r
    return (name, v) :: ms
end

/-- The document that a tree denotes when at most `n` levels may still be opened. -/
def jsonWithin (n : Nat) (w : Written) : Option Json := (resolve n w).map Json.normal

def json (w : Written) : Option Json := jsonWithin maxDepth w

end Written

def parse (s : Bytes) : Option Json := (Written.read s).bind Written.json

end Credentials.Json
