/-!
# YAML documents

A document is a tree of scalars, sequences and mappings. A scalar keeps its text and whether it was
written plain, because only a plain one may stand for something other than text. Keys of mappings
are texts, and members keep their order and repetitions.
-/

namespace Credentials.Yaml

/-- Collections nest at most this deep in a document. -/
def maxDepth : Nat := 128

inductive Node where
  | scalar (plain : Bool) (text : String)
  | sequence (items : List Node)
  | mapping (members : List (String × Node))
deriving Inhabited

namespace Node

def blank : Node := .scalar true ""

mutual
/-- Whether sequences and mappings nest at most `n` deep. -/
def isWithin (n : Nat) : Node → Bool
  | .scalar _ _ => true
  | .sequence items =>
    match n with
    | 0 => false
    | n + 1 => itemsWithin n items
  | .mapping members =>
    match n with
    | 0 => false
    | n + 1 => membersWithin n members

def itemsWithin (n : Nat) : List Node → Bool
  | [] => true
  | v :: r => isWithin n v && itemsWithin n r

def membersWithin (n : Nat) : List (String × Node) → Bool
  | [] => true
  | (_, v) :: r => isWithin n v && membersWithin n r
end

end Node
end Credentials.Yaml
