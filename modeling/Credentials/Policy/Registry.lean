import Credentials.Policy.Definition
import Credentials.Signal

/-!
# The policy registry

The registry holds valid definitions in the order of their registration, each policy and version
once. Nothing is removed, and only the status of a definition changes. The current version of a
policy is its highest active one; without an active one, the highest of all.
-/

namespace Credentials

inductive RegistryError where
  | duplicateVersion (id : PolicyId) (version : PolicyVersion)
  | notFound (id : PolicyId)
  | invalidTransition (source target : PolicyStatus)
  | invalidDefinition (cause : PolicyError)
  | unavailable (detail : String)
  | cancelled
deriving DecidableEq

namespace RegistryError

def message : RegistryError → String
  | .duplicateVersion id v => s!"policy {id.name} {v.text} already registered"
  | .notFound id => s!"policy {id.name} not found"
  | .invalidTransition s t => s!"illegal status transition {s.title} -> {t.title}"
  | .invalidDefinition cause => cause.message
  | .unavailable detail => s!"policy registry unavailable: {detail}"
  | .cancelled => Cancelled.mk.message

end RegistryError

structure PolicyRegistry where
  definitions : List PolicyDefinition

namespace PolicyRegistry

def empty : PolicyRegistry := ⟨[]⟩

def size (r : PolicyRegistry) : Nat := r.definitions.length

/-- A definition of exactly this version, whatever its status. -/
def find? (r : PolicyRegistry) (id : PolicyId) (v : PolicyVersion) : Option PolicyDefinition :=
  r.definitions.find? fun d => d.id = id ∧ d.version = v

def higher (d : PolicyDefinition) : Option PolicyDefinition → PolicyDefinition
  | none => d
  | some e => if d.version.number < e.version.number then e else d

def highest? (ds : List PolicyDefinition) : Option PolicyDefinition :=
  ds.foldr (fun d best => some (higher d best)) none

def versionsOf (r : PolicyRegistry) (id : PolicyId) : List PolicyDefinition :=
  r.definitions.filter fun d => d.id = id

def current? (r : PolicyRegistry) (id : PolicyId) : Option PolicyDefinition :=
  match highest? ((r.versionsOf id).filter fun d => d.status = .active) with
  | some d => some d
  | none => highest? (r.versionsOf id)

def get? (r : PolicyRegistry) (id : PolicyId) : Option PolicyVersion → Option PolicyDefinition
  | some v => r.find? id v
  | none => r.current? id

def register (r : PolicyRegistry) (d : PolicyDefinition) : Except RegistryError PolicyRegistry :=
  match d.validate with
  | .error e => .error (.invalidDefinition e)
  | .ok () =>
    match r.find? d.id d.version with
    | some _ => .error (.duplicateVersion d.id d.version)
    | none => .ok ⟨r.definitions ++ [d]⟩

def setStatus (r : PolicyRegistry) (id : PolicyId) (v : PolicyVersion) (s : PolicyStatus) :
    Except RegistryError PolicyRegistry :=
  match r.find? id v with
  | none => .error (.notFound id)
  | some d =>
    if d.status.mayBecome s then
      .ok ⟨r.definitions.map fun e =>
        if e.id = id ∧ e.version = v then { e with status := s } else e⟩
    else .error (.invalidTransition d.status s)

end PolicyRegistry
end Credentials
