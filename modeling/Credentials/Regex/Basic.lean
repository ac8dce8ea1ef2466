/-!
# Regular expressions

What an expression matches is given by masks. A mask over a text marks places between its characters;
an expression takes the places where a match may begin to the places where it may end. Every mask has
one place more than the text has characters.
-/

namespace Credentials

inductive CharSet where
  | range (low high : Nat)
  | union (a b : CharSet)
  | inter (a b : CharSet)
  | compl (a : CharSet)
  | empty

namespace CharSet

def contains : CharSet → Char → Bool
  | .range low high, c => low ≤ c.toNat && c.toNat ≤ high
  | .union a b, c => a.contains c || b.contains c
  | .inter a b, c => a.contains c && b.contains c
  | .compl a, c => !a.contains c
  | .empty, _ => false

def single (c : Char) : CharSet := .range c.toNat c.toNat

def ofRanges (rs : List (Nat × Nat)) : CharSet :=
  rs.foldl (fun s r => .union s (.range r.1 r.2)) .empty

def all : CharSet := .compl .empty

def digit : CharSet := .range 0x30 0x39

def word : CharSet := ofRanges [(0x30, 0x39), (0x41, 0x5a), (0x5f, 0x5f), (0x61, 0x7a)]

def blank : CharSet :=
  ofRanges [(0x09, 0x0d), (0x20, 0x20), (0xa0, 0xa0), (0x2003, 0x2003), (0x2029, 0x2029),
    (0xfeff, 0xfeff)]

def lineEnd : CharSet := .range 0x0a 0x0a

end CharSet

inductive Regex where
  | empty
  | set (chars : CharSet)
  | cat (a b : Regex)
  | alt (a b : Regex)
  | star (a : Regex)
  | textStart
  | textEnd
  | lineStart
  | lineEnd
  /-- a place between a word character and none, or any other place -/
  | boundary (negated : Bool)
  /-- a place at which a match begins, or none does -/
  | ahead (negated : Bool) (a : Regex)
  /-- a place at which a match ends, or none does -/
  | behind (negated : Bool) (a : Regex)

namespace Regex

abbrev Mask := List Bool

def Mask.or (a b : Mask) : Mask := a.zipWith (· || ·) b

def Mask.and (a b : Mask) : Mask := a.zipWith (· && ·) b

def Mask.isEmpty (m : Mask) : Bool := !m.any id

/-- The mask over a text of `n` characters with the one place `i`. -/
def Mask.place (n i : Nat) : Mask := (List.range (n + 1)).map (· == i)

def iterate {α : Type} (f : α → α) : Nat → α → α
  | 0, a => a
  | n + 1, a => iterate f n (f a)

/-- Whether the places of a text lie next to a character of a set, on the left and on the right. -/
def neighbours (chars : CharSet) (text : List Char) : Mask × Mask :=
  let inside := text.map chars.contains
  (false :: inside, inside ++ [false])

/-- The places where a match may end when it may begin at the places of a mask. -/
def ends (text : List Char) : Regex → Mask → Mask
  | .empty, m => m
  | .set chars, m => false :: m.zipWith (fun p c => p && chars.contains c) text
  | .cat a b, m => ends text b (ends text a m)
  | .alt a b, m => (ends text a m).or (ends text b m)
  | .star a, m => iterate (fun m => m.or (ends text a m)) text.length m
  | .textStart, m => m.and (Mask.place text.length 0)
  | .textEnd, m => m.and (Mask.place text.length text.length)
  | .lineStart, m =>
    m.and ((Mask.place text.length 0).or (neighbours CharSet.lineEnd text).1)
  | .lineEnd, m =>
    m.and ((Mask.place text.length text.length).or (neighbours CharSet.lineEnd text).2)
  | .boundary negated, m =>
    let (left, right) := neighbours CharSet.word text
    m.and (left.zipWith (fun l r => (l != r) != negated) right)
  | .ahead negated a, m =>
    m.and ((List.range (text.length + 1)).map fun i =>
      (ends text a (Mask.place text.length i)).isEmpty == negated)
  | .behind negated a, m =>
    m.and ((ends text a (List.replicate (text.length + 1) true)).map (· != negated))

def matches? (r : Regex) (text : String) : Bool :=
  let cs := text.toList
  !(ends cs r (List.replicate (cs.length + 1) true)).isEmpty

def copies (r : Regex) : Nat → Regex
  | 0 => .empty
  | 1 => r
  | n + 1 => .cat r (copies r n)

def upTo (r : Regex) : Nat → Regex
  | 0 => .empty
  | n + 1 => .alt .empty (.cat r (upTo r n))

/-- From `low` to `high` repetitions, or to any number. -/
def repeated (r : Regex) (low : Nat) : Option Nat → Regex
  | none => .cat (copies r low) (.star r)
  | some high => .cat (copies r low) (upTo r (high - low))

end Regex
end Credentials
