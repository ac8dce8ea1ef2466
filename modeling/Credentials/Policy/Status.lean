import Credentials.Json.Record

/-!
# The life cycle of a policy version

A version moves from draft to active to deprecated to retired, and may be retired from any earlier
status. It never moves back.
-/

namespace Credentials

inductive PolicyStatus where
  | draft
  | active
  | deprecated
  | retired
deriving DecidableEq

namespace PolicyStatus

def name : PolicyStatus → String
  | .draft => "draft"
  | .active => "active"
  | .deprecated => "deprecated"
  | .retired => "retired"

def title : PolicyStatus → String
  | .draft => "Draft"
  | .active => "Active"
  | .deprecated => "Deprecated"
  | .retired => "Retired"

def all : List PolicyStatus := [.draft, .active, .deprecated, .retired]

def ofName? (s : String) : Option PolicyStatus := all.find? fun p => p.name = s

/-- How far a status is on the way from draft to retired. -/
def stage : PolicyStatus → Nat
  | .draft => 0
  | .active => 1
  | .deprecated => 2
  | .retired => 3

def mayBecome : PolicyStatus → PolicyStatus → Bool
  | .draft, .active => true
  | .draft, .retired => true
  | .active, .deprecated => true
  | .active, .retired => true
  | .deprecated, .retired => true
  | _, _ => false

def json (s : PolicyStatus) : Json := .string s.name

def ofWritten? (w : Json.Written) : Option PolicyStatus := w.tag?.bind ofName?

theorem ofName?_name (s : PolicyStatus) : ofName? s.name = some s := by cases s <;> decide

theorem stage_lt_of_mayBecome {s t : PolicyStatus} (h : s.mayBecome t = true) :
    s.stage < t.stage := by
  cases s <;> cases t <;> first | decide | cases h

end PolicyStatus
end Credentials
