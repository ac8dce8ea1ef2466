import Credentials.Yaml.Place

/-!
# Block scalars

Text on lines of its own, behind a column. A literal one keeps its line ends; a folded one joins
lines by a space unless a blank leads one of them. The marks in the header say what becomes of the
line ends at the end, and may name the column.
-/

namespace Credentials.Yaml

inductive Chomping where
  | strip
  | clip
  | keep
deriving DecidableEq

structure BlockHeader where
  chomping : Chomping
  /-- how far behind its surroundings the text stands, if that is said -/
  depth : Option Nat

namespace Input

/-- The lines of an input, each with its end. -/
def lines : Input → List Input
  | [] => []
  | p :: r =>
    if p.char = '\n' then [p] :: lines r
    else match lines r with
      | [] => [[p]]
      | l :: ls => (p :: l) :: ls

def chars (i : Input) : List Char := i.map Place.char

/-- How a line looks from a column: empty, text, or something that ends the scalar. -/
inductive BlockLine where
  | empty
  | text (chars : List Char)
  | outside

def isBreak (i : Input) : Bool := i.head?.any fun p => p.char = '\n'

def withoutBreak (i : Input) : List Char := i.chars.filter (· ≠ '\n')

def blockLine (indent : Nat) (line : Input) : BlockLine :=
  let rest := line.dropWhile fun p => p.char = ' ' && p.column < indent
  if isBreak rest then .empty
  else match rest with
    | [] => .outside
    | p :: _ => if p.column = indent then .text (withoutBreak rest) else .outside

/-- The column of a block scalar: the deepest of its leading lines up to the first with text, none of
which a tab may lead. -/
def blockIndent? (least : Nat) : List Input → Option Nat
  | [] => some least
  | line :: ls =>
    match line.dropWhile fun p => p.char = ' ' with
    | [] => some (max least line.length)
    | p :: _ =>
      if p.char = '\t' then none
      else if p.char = '\n' then blockIndent? (max least p.column) ls
      else some (max least p.column)

structure BlockText where
  /-- the text so far, in reverse -/
  done : List Char
  /-- whether a line with text came before -/
  begun : Bool
  /-- whether a blank led that line -/
  blankLed : Bool
  /-- empty lines since then -/
  breaks : Nat

namespace BlockText

/-- Adds a line with text after the line ends that lead to it. -/
def add (t : BlockText) (literal : Bool) (line : List Char) : BlockText :=
  let blankLeads := line.head?.any isSpace
  let joint : List Char :=
    if !t.begun then []
    else if literal || t.blankLed || blankLeads then ['\n']
    else if t.breaks = 0 then [' '] else []
  ⟨line.reverse ++ List.replicate t.breaks '\n' ++ joint ++ t.done, true, blankLeads, 0⟩

def finish (t : BlockText) (chomping : Chomping) (endsLine : Bool) : String :=
  let last : List Char := if t.begun && endsLine && chomping ≠ .strip then ['\n'] else []
  let more := if chomping = .keep then List.replicate t.breaks '\n' else []
  String.ofList (t.done.reverse ++ last ++ more)

end BlockText

/-- Reads lines as long as they belong to the scalar; the flag says whether the last one with text
had an end. -/
def blockText (literal : Bool) (indent : Nat) (t : BlockText) (ended : Bool) :
    List Input → BlockText × Bool × List Input
  | [] => (t, ended, [])
  | line :: ls =>
    match blockLine indent line with
    | .empty => blockText literal indent { t with breaks := t.breaks + 1 } ended ls
    | .text cs => blockText literal indent (t.add literal cs) (line.any fun p => p.char = '\n') ls
    | .outside => (t, ended, line :: ls)

def chomping? (c : Char) : Option Chomping :=
  if c = '-' then some .strip else if c = '+' then some .keep else none

def depth? (c : Char) : Option Nat :=
  let n := c.toNat - 0x30
  if c.isDigit && n ≠ 0 then some n else none

/-- The marks of a header, in either order, each at most once. -/
def blockHeader (h : BlockHeader) (chomped : Bool) : Input → BlockHeader × Input
  | [] => (h, [])
  | p :: r =>
    match chomped, chomping? p.char, h.depth, depth? p.char with
    | false, some c, _, _ => blockHeader { h with chomping := c } true r
    | _, _, none, some n => blockHeader { h with depth := some n } chomped r
    | _, _, _, _ => (h, p :: r)

/-- Whether a tab stands where a line should have reached a column. -/
def hasTabBefore (indent : Nat) (line : Input) : Bool :=
  (line.find? fun p => p.char ≠ ' ').any fun p => p.char = '\t' && p.column < indent

/-- The lines after a header of which only blanks and a comment are left. -/
def afterHeader? (i : Input) : Option (List Input) :=
  let i := i.dropWhile fun p => isSpace p.char
  let i := if i.head?.any fun p => p.char = '#' then i.dropWhile fun p => p.char ≠ '\n' else i
  match i with
  | [] => some []
  | p :: r => if p.char = '\n' then some (lines r) else none

/-- Reads a block scalar after its first mark. Its surroundings say the least column. -/
def blockScalar? (literal : Bool) (least : Nat) (i : Input) : Option (String × Input) := do
  let (h, i) := blockHeader ⟨.clip, none⟩ false i
  let ls ← afterHeader? i
  let indent ← match h.depth with
    | some n => some (least - 1 + n)
    | none => blockIndent? (max least 1) ls
  let (t, ended, rest) := blockText literal indent ⟨[], false, false, 0⟩ false ls
  if rest.head?.any (hasTabBefore indent) then none
  else some (t.finish h.chomping ended, rest.flatten)

end Input
end Credentials.Yaml
