import Credentials.Json.Basic

/-!
# Replacing strings

Every string of a document may be replaced by a document, depending on the text and, for the value of
a member, on the member's name.
-/

namespace Credentials.Json

mutual
def replace (f : Option String → String → Option Json) (name : Option String) : Json → Json
  | .string s => (f name s).getD (.string s)
  | .array items => .array (replaceItems f items)
  | .object ms => .object (replaceMembers f ms)
  | v => v

def replaceItems (f : Option String → String → Option Json) : List Json → List Json
  | [] => []
  | v :: r => replace f none v :: replaceItems f r

def replaceMembers (f : Option String → String → Option Json) : Members → Members
  | [] => []
  | (n, v) :: r => (n, replace f (some n) v) :: replaceMembers f r
end

def replaceText (f : String → Option Json) (v : Json) : Json := replace (fun _ => f) none v

/-- Puts one text in place of every string that a member of certain names holds. -/
def hide (names : List String) (shown : String) (v : Json) : Json :=
  replace (fun name _ => if name.any names.contains then some (.string shown) else none) none v

end Credentials.Json
