import Credentials.Hex.Digit
import Credentials.Yaml.Place

/-!
# Scalars as written

Plain scalars, and scalars between single or double quotes. In all of them a line end with the
blanks around it is folded into one space, and further line ends stay. Each reader is one recursion
on the input.
-/

namespace Credentials.Yaml

/-- White space that was passed over and counts only if more text follows. -/
inductive Gap where
  /-- blanks within a line, in reverse -/
  | blanks (passed : List Char)
  /-- a line end, and as many more -/
  | folded (more : Nat)
  /-- a line end that was escaped, and as many more -/
  | joined (more : Nat)

namespace Gap

def none : Gap := .blanks []

def chars : Gap → List Char
  | .blanks passed => passed.reverse
  | .folded 0 => [' ']
  | .folded n => List.replicate n '\n'
  | .joined n => List.replicate n '\n'

def addBlank (c : Char) : Gap → Gap
  | .blanks passed => .blanks (c :: passed)
  | g => g

def addBreak : Gap → Gap
  | .blanks _ => .folded 0
  | .folded n => .folded (n + 1)
  | .joined n => .joined (n + 1)

def isNone : Gap → Bool
  | .blanks [] => true
  | _ => false

def crossesLine : Gap → Bool
  | .blanks _ => false
  | _ => true

end Gap

namespace Input

/-- Characters that set off the parts of a collection in flow style. -/
def isFlowMark (c : Char) : Bool := c ∈ [',', '[', ']', '\x7b', '\x7d']

def startsPlain (flow : Bool) : Input → Bool
  | [] => false
  | p :: r =>
    if p.char = '-' then !endsWord r
    else if p.char = '?' || p.char = ':' then !flow && !endsWord r
    else !(isSpace p.char || p.char = '\n' || isFlowMark p.char
      || p.char ∈ ['#', '&', '*', '!', '|', '>', '\x27', '\x22', '%', '@', '\x60'])

/-- Whether a plain scalar ends before a place, given the white space passed so far. -/
def endsPlain (flow : Bool) (indent : Nat) (gap : Gap) (p : Place) (r : Input) : Bool :=
  (p.char = ':' && endsWord r) || (p.char = '#' && !gap.isNone) || (flow && isFlowMark p.char)
    || (!flow && gap.crossesLine && p.column < indent)

/-- Reads a plain scalar to its end; what it holds so far is in reverse. In block style its further
lines stand at or behind a column. -/
def plainFrom (flow : Bool) (indent : Nat) (done : List Char) (gap : Gap) :
    Input → List Char × Input
  | [] => (done.reverse, [])
  | p :: r =>
    if p.char = '\n' then plainFrom flow indent done gap.addBreak r
    else if isSpace p.char then plainFrom flow indent done (gap.addBlank p.char) r
    else if endsPlain flow indent gap p r then (done.reverse, p :: r)
    else plainFrom flow indent (p.char :: (gap.chars.reverse ++ done)) Gap.none r

/-- In flow style a plain scalar does not end with a colon. -/
def plain? (flow : Bool) (indent : Nat) (i : Input) : Option (String × Input) :=
  if startsPlain flow i then
    let (cs, r) := plainFrom flow indent [] Gap.none i
    if flow && cs.getLast? = some ':' then none else some (String.ofList cs, r)
  else none

/-- Reads on between single quotes, where two quotes stand for one. -/
def singleQuoted (done : List Char) (gap : Gap) : Input → Option (List Char × Input)
  | [] => none
  | p :: q :: r =>
    if p.char = '\n' then singleQuoted done gap.addBreak (q :: r)
    else if isSpace p.char then singleQuoted done (gap.addBlank p.char) (q :: r)
    else
      let done := gap.chars.reverse ++ done
      if p.char ≠ '\x27' then singleQuoted (p.char :: done) Gap.none (q :: r)
      else if q.char = '\x27' then singleQuoted (q.char :: done) Gap.none r
      else some (done.reverse, q :: r)
  | [p] => if p.char = '\x27' then some ((gap.chars.reverse ++ done).reverse, []) else none

def escaped? (c : Char) : Option Char :=
  match c with
  | '0' => some '\x00'
  | 'a' => some '\x07'
  | 'b' => some '\x08'
  | 't' => some '\t'
  | '\t' => some '\t'
  | 'n' => some '\n'
  | 'v' => some '\x0b'
  | 'f' => some '\x0c'
  | 'r' => some '\r'
  | 'e' => some '\x1b'
  | ' ' => some ' '
  | '\x22' => some '\x22'
  | '/' => some '/'
  | '\\' => some '\\'
  | 'N' => some '\x85'
  | '_' => some '\xa0'
  | 'L' => some '\u2028'
  | 'P' => some '\u2029'
  | _ => none

def codeLength? (c : Char) : Option Nat :=
  match c with
  | 'x' => some 2
  | 'u' => some 4
  | 'U' => some 8
  | _ => none

inductive Escape where
  | none
  | backslash
  /-- so many digits of a code are still to come -/
  | code (left value : Nat)

/-- The character with a number that is a Unicode scalar value. -/
def scalarValue? (n : Nat) : Option Char := if n.isValidChar then some (Char.ofNat n) else none

def hexValue? (c : Char) : Option Nat :=
  if c.toNat < 0x80 then Hex.digitValue? (UInt8.ofNat c.toNat) else none

def doubleQuoted (escape : Escape) (done : List Char) (gap : Gap) :
    Input → Option (List Char × Input)
  | [] => none
  | p :: r =>
    match escape with
    | .none =>
      if p.char = '\n' then doubleQuoted .none done gap.addBreak r
      else if isSpace p.char then doubleQuoted .none done (gap.addBlank p.char) r
      else
        let done := gap.chars.reverse ++ done
        if p.char = '\x22' then some (done.reverse, r)
        else if p.char = '\\' then doubleQuoted .backslash done Gap.none r
        else doubleQuoted .none (p.char :: done) Gap.none r
    | .backslash =>
      if p.char = '\n' then doubleQuoted .none done (.joined 0) r
      else match codeLength? p.char with
        | some n => doubleQuoted (.code n 0) done gap r
        | .none => do doubleQuoted .none ((← escaped? p.char) :: done) gap r
    | .code left value => do
      let value := 16 * value + (← hexValue? p.char)
      if left ≤ 1 then doubleQuoted .none ((← scalarValue? value) :: done) gap r
      else doubleQuoted (.code (left - 1) value) done gap r

end Input
end Credentials.Yaml
