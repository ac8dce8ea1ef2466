import Credentials.Json.Printer

/-!
# Printing on lines

The text of a document with an item or a member on each line, two blanks deeper for each level. What
is empty stays on its line.
-/

namespace Credentials.Json

def newLine (depth : Nat) : Bytes := 0x0a :: List.replicate (2 * depth) 0x20

mutual
def pretty (depth : Nat) : Json → Bytes
  | .array [] => [0x5b, 0x5d]
  | .array (v :: r) =>
    0x5b :: (newLine (depth + 1) ++ pretty (depth + 1) v ++ prettyItems (depth + 1) r
      ++ newLine depth ++ [0x5d])
  | .object [] => [0x7b, 0x7d]
  | .object ((n, v) :: r) =>
    0x7b :: (newLine (depth + 1) ++ quoted (piecesOf n) ++ [0x3a, 0x20] ++ pretty (depth + 1) v
      ++ prettyMembers (depth + 1) r ++ newLine depth ++ [0x7d])
  | v => v.print

def prettyItems (depth : Nat) : List Json → Bytes
  | [] => []
  | v :: r => 0x2c :: (newLine depth ++ pretty depth v ++ prettyItems depth r)

def prettyMembers (depth : Nat) : Members → Bytes
  | [] => []
  | (n, v) :: r =>
    0x2c :: (newLine depth ++ quoted (piecesOf n) ++ [0x3a, 0x20] ++ pretty depth v
      ++ prettyMembers depth r)
end

end Credentials.Json
