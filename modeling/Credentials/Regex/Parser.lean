import Credentials.Hex.Digit
import Credentials.Regex.Basic

/-!
# Patterns

The text of a regular expression: alternatives, sequences, repetitions with `*`, `+`, `?` and braces,
groups, look-around, classes in brackets, anchors and escapes. Blanks, digits and word characters of
the escaped classes are those of ECMAScript. A pattern that is not well formed has no expression.
-/

namespace Credentials.Regex

structure Flags where
  ignoreCase : Bool
  multiLine : Bool
  dotAll : Bool

def Flags.none : Flags := ⟨false, false, false⟩

/-- The ranges of a set with every ASCII letter in both cases. -/
def bothCases (s : CharSet) : CharSet :=
  (List.range 26).foldl (fun acc i =>
    let small := Char.ofNat (0x61 + i)
    let large := Char.ofNat (0x41 + i)
    if s.contains small || s.contains large then
      .union acc (.union (CharSet.single small) (CharSet.single large))
    else acc) s

def setWith (f : Flags) (s : CharSet) : Regex := .set (if f.ignoreCase then bothCases s else s)

def hexValue? (c : Char) : Option Nat :=
  if c.toNat < 0x80 then Hex.digitValue? (UInt8.ofNat c.toNat) else none

def hexNumber? (cs : List Char) : Option Nat :=
  if cs = [] then none
  else cs.foldl (fun acc c => do return (← acc) * 16 + (← hexValue? c)) (some 0)

def charOf? (n : Nat) : Option Char :=
  if n < 0xd800 ∨ (0xe000 ≤ n ∧ n < 0x110000) then some (Char.ofNat n) else none

/-- A character given by its number, after the letter that tells how many digits it has. -/
def numbered (digits : Nat) : List Char → Option (Char × List Char)
  | '\x7b' :: r => do
    let body := r.takeWhile (· ≠ '\x7d')
    let c ← charOf? (← hexNumber? body)
    match r.drop body.length with
    | _ :: r => some (c, r)
    | [] => none
  | r => do
    guard (digits ≤ r.length)
    let c ← charOf? (← hexNumber? (r.take digits))
    return (c, r.drop digits)

def classEscape? (c : Char) : Option CharSet :=
  match c with
  | 'd' => some CharSet.digit
  | 'D' => some (.compl CharSet.digit)
  | 'w' => some CharSet.word
  | 'W' => some (.compl CharSet.word)
  | 's' => some CharSet.blank
  | 'S' => some (.compl CharSet.blank)
  | _ => none

/-- An escaped character, and the pattern after it. -/
def charEscape : List Char → Option (Char × List Char)
  | 'n' :: r => some ('\n', r)
  | 't' :: r => some ('\t', r)
  | 'r' :: r => some ('\r', r)
  | 'f' :: r => some ('\x0c', r)
  | 'v' :: r => some ('\x0b', r)
  | 'a' :: r => some ('\x07', r)
  | 'x' :: r => numbered 2 r
  | 'u' :: r => numbered 4 r
  | 'U' :: r => numbered 8 r
  | 'c' :: l :: r => if l.isAlpha then some (Char.ofNat (l.toNat % 32), r) else none
  | c :: r =>
    if c.toNat < 0x80 ∧ ¬ c.isAlphanum ∧ c ≠ '<' ∧ c ≠ '>' then some (c, r) else none
  | [] => none

/-- A named class of ASCII characters, as in `[:alpha:]`. -/
def namedClass? (name : String) : Option CharSet :=
  match name with
  | "alnum" => some (CharSet.ofRanges [(0x30, 0x39), (0x41, 0x5a), (0x61, 0x7a)])
  | "alpha" => some (CharSet.ofRanges [(0x41, 0x5a), (0x61, 0x7a)])
  | "ascii" => some (.range 0 0x7f)
  | "blank" => some (CharSet.ofRanges [(0x09, 0x09), (0x20, 0x20)])
  | "cntrl" => some (CharSet.ofRanges [(0, 0x1f), (0x7f, 0x7f)])
  | "digit" => some CharSet.digit
  | "graph" => some (.range 0x21 0x7e)
  | "lower" => some (.range 0x61 0x7a)
  | "print" => some (.range 0x20 0x7e)
  | "punct" =>
    some (CharSet.ofRanges [(0x21, 0x2f), (0x3a, 0x40), (0x5b, 0x60), (0x7b, 0x7e)])
  | "space" => some (CharSet.ofRanges [(0x09, 0x0d), (0x20, 0x20)])
  | "upper" => some (.range 0x41 0x5a)
  | "word" => some CharSet.word
  | "xdigit" => some (CharSet.ofRanges [(0x30, 0x39), (0x41, 0x46), (0x61, 0x66)])
  | _ => none

def namedClass (cs : List Char) : Option (CharSet × List Char) :=
  let (negated, cs) := match cs with
    | '^' :: r => (true, r)
    | r => (false, r)
  let name := cs.takeWhile Char.isAlpha
  match cs.drop name.length with
  | ':' :: ']' :: r =>
    (namedClass? (String.ofList name)).map fun s => (if negated then .compl s else s, r)
  | _ => none

def classChar : List Char → Option (Char × List Char)
  | '\\' :: r => charEscape r
  | c :: r => some (c, r)
  | [] => none

/-- The rest of a class after its opening bracket and negation; `first` while nothing has been read,
so that a closing bracket stands for itself. -/
def classItems (first : Bool) (acc : CharSet) : Nat → List Char → Option (CharSet × List Char)
  | 0, _ => none
  | _ + 1, [] => none
  | n + 1, ']' :: r => if first then classItems false (.union acc (CharSet.single ']')) n r
    else some (acc, r)
  | n + 1, '[' :: ':' :: r =>
    match namedClass r with
    | some (s, r) => classItems false (.union acc s) n r
    | none => none
  | n + 1, '[' :: r =>
    let (negated, r) := match r with
      | '^' :: r => (true, r)
      | r => (false, r)
    match classItems true .empty n r with
    | some (s, r) => classItems false (.union acc (if negated then .compl s else s)) n r
    | none => none
  | n + 1, '&' :: '&' :: r =>
    match classItems false .empty n r with
    | some (s, r) => some (.inter acc s, r)
    | none => none
  | n + 1, '\\' :: c :: r =>
    match classEscape? c with
    | some s => classItems false (.union acc s) n r
    | none =>
      match charEscape (c :: r) with
      | some (low, '-' :: ']' :: r) =>
        classItems false (.union acc (CharSet.single low)) n ('-' :: ']' :: r)
      | some (low, '-' :: r) =>
        match classChar r with
        | some (high, r) =>
          if low ≤ high then classItems false (.union acc (.range low.toNat high.toNat)) n r
          else none
        | none => none
      | some (low, r) => classItems false (.union acc (CharSet.single low)) n r
      | none => none
  | n + 1, low :: '-' :: ']' :: r =>
    classItems false (.union acc (CharSet.single low)) n ('-' :: ']' :: r)
  | n + 1, low :: '-' :: r =>
    match classChar r with
    | some (high, r) =>
      if low ≤ high then classItems false (.union acc (.range low.toNat high.toNat)) n r else none
    | none => none
  | n + 1, low :: r => classItems false (.union acc (CharSet.single low)) n r

def charClass (n : Nat) (cs : List Char) : Option (CharSet × List Char) :=
  match cs with
  | '^' :: r => (classItems true .empty n r).map fun (s, r) => (.compl s, r)
  | r => classItems true .empty n r

def number (cs : List Char) : Option Nat × List Char :=
  let ds := cs.takeWhile Char.isDigit
  (if ds = [] then none else (String.ofList ds).toNat?, cs.drop ds.length)

/-- The bounds between braces, after the opening one. -/
def bounds (cs : List Char) : Option ((Nat × Option Nat) × List Char) :=
  match number cs with
  | (some low, '\x7d' :: r) => some ((low, some low), r)
  | (low, ',' :: r) =>
    match number r with
    | (none, '\x7d' :: r) => low.map fun low => ((low, none), r)
    | (some high, '\x7d' :: r) =>
      if low.getD 0 ≤ high then some ((low.getD 0, some high), r) else none
    | _ => none
  | _ => none

/-- Skips the mark of a repetition that prefers short matches; it does not change what matches. -/
def skipLazy : List Char → List Char
  | '?' :: r => r
  | r => r

def repetitions (r : Regex) : Nat → List Char → Option (Regex × List Char)
  | 0, cs => some (r, cs)
  | n + 1, '*' :: cs => repetitions (.star r) n (skipLazy cs)
  | n + 1, '+' :: cs => repetitions (.cat r (.star r)) n (skipLazy cs)
  | n + 1, '?' :: cs => repetitions (.alt .empty r) n (skipLazy cs)
  | n + 1, '\x7b' :: cs =>
    match bounds cs with
    | some ((low, high), cs) => repetitions (r.repeated low high) n (skipLazy cs)
    | none => none
  | _ + 1, cs => some (r, cs)

/-- The letters of flags up to a colon or a closing parenthesis. -/
def flagLetters (f : Flags) (on : Bool) : List Char → Option (Flags × Char × List Char)
  | 'i' :: r => flagLetters { f with ignoreCase := on } on r
  | 'm' :: r => flagLetters { f with multiLine := on } on r
  | 's' :: r => flagLetters { f with dotAll := on } on r
  | 'u' :: r => flagLetters f on r
  | '-' :: r => flagLetters f false r
  | ':' :: r => some (f, ':', r)
  | ')' :: r => some (f, ')', r)
  | _ => none

/-- The pattern after the name of a group. -/
def skipName (cs : List Char) : Option (List Char) :=
  let name := cs.takeWhile fun c => c.isAlphanum || c == '_'
  match name, cs.drop name.length with
  | c :: _, '>' :: r => if c.isDigit then none else some r
  | _, _ => none

def closed : Option (Regex × List Char) → Option (Regex × List Char)
  | some (r, ')' :: cs) => some (r, cs)
  | _ => none

mutual
/-- Alternatives up to a closing parenthesis or the end. -/
def alternatives (f : Flags) : Nat → List Char → Option (Regex × List Char)
  | 0, _ => none
  | n + 1, cs =>
    match sequence f n cs with
    | some (a, '|' :: cs) =>
      match alternatives f n cs with
      | some (b, cs) => some (.alt a b, cs)
      | none => none
    | r => r

def sequence (f : Flags) : Nat → List Char → Option (Regex × List Char)
  | 0, _ => none
  | _ + 1, [] => some (.empty, [])
  | _ + 1, '|' :: cs => some (.empty, '|' :: cs)
  | _ + 1, ')' :: cs => some (.empty, ')' :: cs)
  | n + 1, '(' :: '?' :: cs =>
    match flagLetters f true cs with
    | some (g, ')', cs) => sequence g n cs
    | _ => followed f n (group f n ('?' :: cs))
  | n + 1, '(' :: cs => followed f n (group f n cs)
  | n + 1, cs => followed f n (atom f n cs)

/-- The repetitions of an expression and what follows it. -/
def followed (f : Flags) (n : Nat) (r : Option (Regex × List Char)) :
    Option (Regex × List Char) :=
  match n, r with
  | 0, _ => none
  | _, none => none
  | n + 1, some (a, cs) =>
    match repetitions a cs.length cs with
    | none => none
    | some (a, cs) =>
      match sequence f n cs with
      | some (b, cs) => some (.cat a b, cs)
      | none => none

/-- A group after its opening parenthesis. -/
def group (f : Flags) : Nat → List Char → Option (Regex × List Char)
  | 0, _ => none
  | n + 1, '?' :: ':' :: cs => closed (alternatives f n cs)
  | n + 1, '?' :: '=' :: cs => (closed (alternatives f n cs)).map fun (r, cs) => (.ahead false r, cs)
  | n + 1, '?' :: '!' :: cs => (closed (alternatives f n cs)).map fun (r, cs) => (.ahead true r, cs)
  | n + 1, '?' :: '<' :: '=' :: cs =>
    (closed (alternatives f n cs)).map fun (r, cs) => (.behind false r, cs)
  | n + 1, '?' :: '<' :: '!' :: cs =>
    (closed (alternatives f n cs)).map fun (r, cs) => (.behind true r, cs)
  | n + 1, '?' :: 'P' :: '<' :: cs => (skipName cs).bind fun cs => closed (alternatives f n cs)
  | n + 1, '?' :: '<' :: cs => (skipName cs).bind fun cs => closed (alternatives f n cs)
  | n + 1, '?' :: cs =>
    match flagLetters f true cs with
    | some (g, ':', cs) => closed (alternatives g n cs)
    | _ => none
  | n + 1, cs => closed (alternatives f n cs)

/-- An expression that is no group. -/
def atom (f : Flags) : Nat → List Char → Option (Regex × List Char)
  | 0, _ => none
  | _ + 1, [] => none
  | _ + 1, '.' :: cs =>
    some (.set (if f.dotAll then CharSet.all else .compl CharSet.lineEnd), cs)
  | _ + 1, '^' :: cs => some (if f.multiLine then .lineStart else .textStart, cs)
  | _ + 1, '$' :: cs => some (if f.multiLine then .lineEnd else .textEnd, cs)
  | n + 1, '[' :: cs => (charClass (n + 1) cs).map fun (s, cs) => (setWith f s, cs)
  | _ + 1, '\\' :: 'b' :: cs => some (.boundary false, cs)
  | _ + 1, '\\' :: 'B' :: cs => some (.boundary true, cs)
  | _ + 1, '\\' :: 'A' :: cs => some (.textStart, cs)
  | _ + 1, '\\' :: 'z' :: cs => some (.textEnd, cs)
  | _ + 1, '\\' :: c :: cs =>
    match classEscape? c with
    | some s => some (setWith f s, cs)
    | none => (charEscape (c :: cs)).map fun (c, cs) => (setWith f (CharSet.single c), cs)
  | _ + 1, '\\' :: [] => none
  | _ + 1, c :: cs =>
    if c = '*' ∨ c = '+' ∨ c = '?' ∨ c = '\x7b' then none
    else some (setWith f (CharSet.single c), cs)
end

def parse? (pattern : String) : Option Regex :=
  let cs := pattern.toList
  match alternatives Flags.none (4 * cs.length + 8) cs with
  | some (r, []) => some r
  | _ => none

end Credentials.Regex
