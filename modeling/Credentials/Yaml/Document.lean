import Credentials.Yaml.Basic
import Credentials.Yaml.Block
import Credentials.Yaml.Scalar

/-!
# Reading documents

Block style nests by columns: what belongs to an entry stands behind its column, and only a sequence
may stand in the column of the key that it belongs to. Flow style nests by brackets. A key stands on
one line with its colon. Anchors, tags and keys that are no texts are refused.
-/

namespace Credentials.Yaml

namespace Input

def scalar? (flow : Bool) (indent : Nat) : Input → Option (Bool × String × Input)
  | [] => none
  | p :: r =>
    if p.char = '\x27' then
      (singleQuoted [] Gap.none r).map fun (cs, r) => (false, String.ofList cs, r)
    else if p.char = '\x22' then
      (doubleQuoted .none [] Gap.none r).map fun (cs, r) => (false, String.ofList cs, r)
    else (plain? flow indent (p :: r)).map fun (s, r) => (true, s, r)

mutual
def flowNode (fuel : Nat) (i : Input) : Option (Node × Input) :=
  match fuel, i with
  | fuel + 1, p :: r =>
    if p.char = '[' then flowItems fuel [] r
    else if p.char = '\x7b' then flowMembers fuel [] r
    else (scalar? true 0 (p :: r)).map fun (plain, s, r) => (.scalar plain s, r)
  | _, _ => none

/-- The items up to the closing bracket; a comma may stand after the last. -/
def flowItems (fuel : Nat) (done : List Node) (i : Input) : Option (Node × Input) :=
  match fuel, skip true i with
  | fuel + 1, p :: r =>
    if p.char = ']' then some (.sequence done.reverse, r)
    else do
      let (v, i) ← flowNode fuel (p :: r)
      match skip true i with
      | q :: r =>
        if q.char = ',' then flowItems fuel (v :: done) r
        else if q.char = ']' then some (.sequence (v :: done).reverse, r)
        else none
      | [] => none
  | _, _ => none

/-- The members up to the closing brace; a comma may stand after the last. -/
def flowMembers (fuel : Nat) (done : List (String × Node)) (i : Input) : Option (Node × Input) :=
  match fuel, skip true i with
  | fuel + 1, p :: r =>
    if p.char = '\x7d' then some (.mapping done.reverse, r)
    else do
      let (_, key, i) ← scalar? true 0 (p :: r)
      let (v, i) ← flowValue fuel p.line i
      match skip true i with
      | q :: r =>
        if q.char = ',' then flowMembers fuel ((key, v) :: done) r
        else if q.char = '\x7d' then some (.mapping ((key, v) :: done).reverse, r)
        else none
      | [] => none
  | _, _ => none

/-- The value after a key that stands on a line; it may be left out. -/
def flowValue (fuel line : Nat) (i : Input) : Option (Node × Input) :=
  match fuel, skip true i with
  | fuel + 1, p :: r =>
    if p.char = ':' && p.line = line then
      match skip true r with
      | q :: r =>
        if q.char = ',' || q.char = '\x7d' then some (.blank, q :: r)
        else flowNode fuel (q :: r)
      | [] => none
    else some (.blank, p :: r)
  | _, _ => none
end

def startsItem : Input → Bool
  | [] => false
  | p :: r => p.char = '-' && endsWord r

/-- What follows the colon of a key that stands on a line. -/
def afterKey? (line : Nat) (i : Input) : Option Input :=
  match skip false i with
  | [] => none
  | p :: r => if p.char = ':' && endsWord r && p.line = line then some r else none

def lineEnd? (v : Node) (i : Input) : Option (Node × Input) :=
  match skip false i with
  | [] => some (v, [])
  | p :: r => if p.leads then some (v, p :: r) else none

mutual
/-- A node behind a column. What may nest starts a line or follows the mark of an item. -/
def blockNode (fuel indent : Nat) (nests : Bool) (i : Input) : Option (Node × Input) :=
  match fuel, i with
  | fuel + 1, p :: r =>
    if startsItem (p :: r) then
      if nests then blockItems fuel p.column [] (p :: r) else none
    else if p.char = '[' || p.char = '\x7b' then do
      let (v, r) ← flowNode fuel (p :: r)
      lineEnd? v r
    else if p.char = '|' || p.char = '>' then do
      let (s, r) ← blockScalar? (p.char = '|') indent r
      lineEnd? (.scalar false s) r
    else do
      let (plain, s, r) ← scalar? false indent (p :: r)
      match afterKey? p.line r with
      | some r => if nests then blockMembers fuel p.column [] s r else none
      | none => lineEnd? (.scalar plain s) r
  | _, _ => none

/-- The members in a column, from the value of a key on. -/
def blockMembers (fuel column : Nat) (done : List (String × Node)) (key : String) (i : Input) :
    Option (Node × Input) :=
  match fuel with
  | 0 => none
  | fuel + 1 => do
    let (v, i) ← blockValue fuel column i
    let done := (key, v) :: done
    match i with
    | [] => return (.mapping done.reverse, [])
    | p :: r =>
      if p.column < column then return (.mapping done.reverse, p :: r)
      else if column < p.column then none
      else do
        let (_, key, i) ← scalar? false (column + 1) (p :: r)
        let i ← afterKey? p.line i
        blockMembers fuel column done key i

/-- The value of a key in a column; it may be left out. -/
def blockValue (fuel column : Nat) (i : Input) : Option (Node × Input) :=
  match fuel, skip false i with
  | fuel + 1, p :: r =>
    if !p.leads || column < p.column then blockNode fuel (column + 1) p.leads (p :: r)
    else if p.column = column && startsItem (p :: r) then blockItems fuel column [] (p :: r)
    else some (.blank, p :: r)
  | _, [] => some (.blank, [])
  | _, _ => none

def blockItems (fuel column : Nat) (done : List Node) (i : Input) : Option (Node × Input) :=
  match fuel, i with
  | fuel + 1, p :: r =>
    if p.column = column && startsItem (p :: r) then do
      let (v, i) ← blockItem fuel column r
      blockItems fuel column (v :: done) i
    else if column < p.column then none
    else some (.sequence done.reverse, p :: r)
  | _, [] => some (.sequence done.reverse, [])
  | _, _ => none

/-- What follows the mark of an item in a column; it may be left out. -/
def blockItem (fuel column : Nat) (i : Input) : Option (Node × Input) :=
  match fuel, skip false i with
  | fuel + 1, p :: r =>
    if !p.leads || column < p.column then blockNode fuel (column + 1) true (p :: r)
    else some (.blank, p :: r)
  | _, [] => some (.blank, [])
  | _, _ => none
end

end Input

/-- Reads a text that holds one document; without content it holds a blank. -/
def read? (s : String) : Option Node := do
  let i ← Input.ofText? s
  let i ← i.content?
  match i.skip false with
  | [] => return .blank
  | p :: r => do
    let (v, rest) ← Input.blockNode (4 * i.length + 8) 0 p.leads (p :: r)
    if rest.isEmpty && v.isWithin maxDepth then some v else none

end Credentials.Yaml
