import Credentials.Json.Printer

/-!
# Canonical form

Every document has one canonical byte string: the compact text of its normal form, so members stand
in ascending order of their names and nothing about layout, member order or escapes remains. Numbers
keep their spelling. The bytes are written part by part, and whatever is written to may refuse a part.
-/

namespace Credentials

inductive CanonicalizationError where
  /-- no document can be read at the start -/
  | invalidJson
  /-- something follows the document -/
  | trailingData
  /-- a map has names that are not text -/
  | serializationFailed
deriving DecidableEq

namespace CanonicalizationError

def message : CanonicalizationError → String
  | .invalidJson => "invalid JSON: no document at the start of the text"
  | .trailingData => "extra data after the first JSON value"
  | .serializationFailed => "serialization failed: key must be a string"

end CanonicalizationError

/-- Where a text is written to, one part after the other; a part may be refused. -/
abbrev Sink (σ : Type) := Bytes → σ → Except CanonicalizationError σ

namespace Json

variable {σ : Type}

mutual
/-- Writes a document, its members in their order. -/
def write (put : Sink σ) : Json → σ → Except CanonicalizationError σ
  | .array items, out => do
    let out ← put [0x5b] out
    let out ← writeItems put true items out
    put [0x5d] out
  | .object ms, out => do
    let out ← put [0x7b] out
    let out ← writeMembers put true ms out
    put [0x7d] out
  | v, out => put v.print out

def writeItems (put : Sink σ) : Bool → List Json → σ → Except CanonicalizationError σ
  | _, [], out => .ok out
  | isFirst, v :: r, out => do
    let out ← if isFirst then .ok out else put [0x2c] out
    let out ← write put v out
    writeItems put false r out

def writeMembers (put : Sink σ) : Bool → Members → σ → Except CanonicalizationError σ
  | _, [], out => .ok out
  | isFirst, (n, v) :: r, out => do
    let out ← if isFirst then .ok out else put [0x2c] out
    let out ← put (quoted (piecesOf n)) out
    let out ← put [0x3a] out
    let out ← write put v out
    writeMembers put false r out
end

end Json

/-- A buffer keeps what is written to it in reverse. -/
abbrev Buffer := List Bytes

namespace Buffer

def bytes (b : Buffer) : Bytes := b.reverse.flatten

def put : Sink Buffer := fun text b => .ok (text :: b)

end Buffer

structure Canonical where
  bytes : Bytes
deriving DecidableEq

namespace Canonical

def ofJson (v : Json) : Canonical := ⟨v.normal.print⟩

/-- The canonical bytes of a document as they are written into a buffer. -/
def ofValue (v : Json) : Except CanonicalizationError Canonical :=
  (v.normal.write Buffer.put []).map fun b => ⟨b.bytes⟩

/-- The document at the start of a text, and whether anything follows it. -/
def read (text : Bytes) : Except CanonicalizationError Json :=
  match Json.Written.first text with
  | none => .error .invalidJson
  | some (w, rest) =>
    match w.json with
    | none => .error .invalidJson
    | some v => if rest = [] then .ok v else .error .trailingData

def ofText (text : Bytes) : Except CanonicalizationError Canonical :=
  match read text with
  | .error e => .error e
  | .ok v => ofValue v

end Canonical
end Credentials
