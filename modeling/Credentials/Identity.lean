import Credentials.Text.Blank
import Credentials.Text.Quoted
import Credentials.Uuid

/-!
# Identifiers

Policies, subjects and signing keys have names that are neither empty nor begin or end with a blank;
credentials have universally unique identifiers. Each kind is a type of its own. A name read from a
document is taken as it stands.
-/

namespace Credentials

inductive IdentifierError where
  | empty (kind : String)
  | blankEnds (kind : String)
  | malformedCredentialId (text : String)
  | versionZero
deriving DecidableEq

namespace IdentifierError

def message (e : IdentifierError) : String :=
  "invalid identifier: " ++ match e with
    | .empty kind => s!"{kind} must not be empty"
    | .blankEnds kind => s!"{kind} must not have leading or trailing whitespace"
    | .malformedCredentialId s => s!"credential id {Text.quoted s}: malformed"
    | .versionZero => "policy version must be at least 1"

end IdentifierError

/-- Checks a name: something must be left after trimming, and nothing may be trimmed. -/
def checkName (kind name : String) : Except IdentifierError String :=
  let trimmed := Text.trim name
  if trimmed.isEmpty then .error (.empty kind)
  else if trimmed ≠ name then .error (.blankEnds kind)
  else .ok name

structure PolicyId where
  name : String
deriving DecidableEq

structure SubjectId where
  name : String
deriving DecidableEq

structure KeyId where
  name : String
deriving DecidableEq

structure CredentialId where
  uuid : Uuid
deriving DecidableEq

structure PolicyVersion where
  number : UInt32
deriving DecidableEq

def PolicyId.ofName (name : String) : Except IdentifierError PolicyId :=
  (checkName "policy id" name).map PolicyId.mk

def SubjectId.ofName (name : String) : Except IdentifierError SubjectId :=
  (checkName "subject id" name).map SubjectId.mk

def KeyId.ofName (name : String) : Except IdentifierError KeyId :=
  (checkName "key id" name).map KeyId.mk

def CredentialId.parse (s : String) : Except IdentifierError CredentialId :=
  match Uuid.ofText? s with
  | some u => .ok ⟨u⟩
  | none => .error (.malformedCredentialId s)

def CredentialId.text (c : CredentialId) : String := c.uuid.text

def PolicyVersion.ofNumber (n : UInt32) : Except IdentifierError PolicyVersion :=
  if n = 0 then .error .versionZero else .ok ⟨n⟩

def PolicyVersion.text (v : PolicyVersion) : String := s!"v{v.number.toNat}"

end Credentials
