import Credentials.Presentation.Basic
import Credentials.Validator

/-!
# Presentations of a credential

The presentation holds a token. The token has to be valid, its credential of the expected type, and
the attribute literally true.
-/

namespace Credentials

structure CredentialVerifier (W : Type) where
  validator : Validator W
  expectedType : String
  /-- the claim that has to be true -/
  flag : String

namespace CredentialVerifier

variable {W : Type}

/-- The claim that has to be true unless set otherwise. -/
def defaultFlag : String := "satisfied"

def reject (reasons : List Reason) : Verdict := .reject .credential reasons

def token? (presentation : Json) : Option String :=
  (presentation.asObject?.bind fun ms => Json.get? ms "credential").bind Json.asString?

def hasType (v : CredentialVerifier W) (c : Credential) : Bool :=
  (Json.get? c.claims "credentialType").bind Json.asString? == some v.expectedType

def hasFlag (v : CredentialVerifier W) (c : Credential) : Bool :=
  match Json.get? c.claims v.flag with
  | some (.bool true) => true
  | _ => false

def judge (v : CredentialVerifier W) (r : Validation) : Except VerifierError Verdict :=
  match r.isValid, r.credential with
  | true, some c =>
    if !v.hasType c then .ok (reject [.policyMismatch])
    else if !v.hasFlag c then .ok (reject [.attributeNotMet])
    else .ok (.accept .credential (some c.keyId.name))
  | true, none => .error (.dependency "validator returned no credential")
  | false, _ =>
    if r.reason = .internalError then
      .error (.dependency "credential validation failed internally")
    else .ok (reject [.credentialInvalid, r.reason])

def verify (v : CredentialVerifier W) (presentation : Json) : Step W VerifierError Verdict := do
  match token? presentation with
  | none => return reject [.malformedPresentation]
  | some s =>
    let r ← (v.validator.validate s).mapError fun _ => .cancelled
    Step.ofExcept (v.judge r)

def verifier (v : CredentialVerifier W) : Verifier W := ⟨.credential, v.verify⟩

end CredentialVerifier
end Credentials
