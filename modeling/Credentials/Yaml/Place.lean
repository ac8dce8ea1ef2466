/-!
# Places in a text

YAML gives meaning to where a character stands, so a text is read as the list of its characters,
each with its line, its column, and whether only blanks stand before it on its line. Line ends are
brought into one form first.
-/

namespace Credentials.Yaml

structure Place where
  char : Char
  line : Nat
  column : Nat
  /-- whether the character is the first on its line that is no space -/
  leads : Bool

/-- What is left of a text. -/
abbrev Input := List Place

namespace Input

def placed (line column : Nat) (leads : Bool) : List Char → Input
  | [] => []
  | c :: r =>
    ⟨c, line, column, leads && c ≠ ' '⟩
      :: (if c = '\n' then placed (line + 1) 0 true r
        else placed line (column + 1) (leads && c = ' ') r)

/-- Carriage returns and the next-line character end a line as a line feed does. -/
def unifyBreaks : List Char → List Char
  | [] => []
  | '\r' :: '\n' :: r => '\n' :: unifyBreaks r
  | '\r' :: r => '\n' :: unifyBreaks r
  | '\x85' :: r => '\n' :: unifyBreaks r
  | c :: r => c :: unifyBreaks r

def isAllowed (c : Char) : Bool :=
  let n := c.toNat
  n == 0x09 || n == 0x0a || n == 0x0d || (0x20 ≤ n && n ≤ 0x7e) || n == 0x85
    || (0xa0 ≤ n && n ≤ 0xd7ff) || (0xe000 ≤ n && n ≤ 0xfffd && n ≠ 0xfeff) || 0x10000 ≤ n

/-- The places of a text; a byte order mark in front does not count. -/
def ofText? (s : String) : Option Input :=
  let cs := match s.toList with
    | '\ufeff' :: r => r
    | cs => cs
  if cs.all isAllowed then some (placed 0 0 true (unifyBreaks cs)) else none

end Input

def isSpace (c : Char) : Bool := c = ' ' || c = '\t'

namespace Input

/-- Whether a word ends here: at a blank, at the end of a line or of the text. -/
def endsWord : Input → Bool
  | [] => true
  | p :: _ => isSpace p.char || p.char = '\n'

/-- Passes over blanks, line ends and comments. In block style no tab may stand before what leads a
line. -/
def skipFrom (flow comment : Bool) : Input → Input
  | [] => []
  | p :: r =>
    if p.char = '\n' then skipFrom flow false r
    else if comment then skipFrom flow true r
    else if p.char = ' ' || (p.char = '\t' && (flow || !p.leads)) then skipFrom flow false r
    else if p.char = '#' then skipFrom flow true r
    else p :: r

def skip (flow : Bool) (i : Input) : Input := skipFrom flow false i

/-- Whether a line of the document's frame starts here: three marks in its first columns. -/
def isFrame (mark : Char) : Input → Bool
  | p :: q :: r :: i =>
    p.column = 0 && p.char = mark && q.char = mark && r.char = mark && endsWord i
  | _ => false

/-- The input before the first line of the frame, and from there on. -/
def untilFrame : Input → Input × Input
  | [] => ([], [])
  | p :: r =>
    if isFrame '-' (p :: r) || isFrame '.' (p :: r) then ([], p :: r)
    else
      let (before, rest) := untilFrame r
      (p :: before, rest)

def content? (i : Input) : Option Input :=
  let i := skip false i
  let (content, rest) := untilFrame (if isFrame '-' i then i.drop 3 else i)
  if rest.isEmpty || (isFrame '.' rest && (skip false (rest.drop 3)).isEmpty) then some content
  else none

end Input
end Credentials.Yaml
