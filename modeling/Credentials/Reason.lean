import Credentials.Text.Quoted

/-!
# Reason codes

Every decision about a credential or a presentation carries codes from one closed list. A code has a
name and a number; both are unique.
-/

namespace Credentials

inductive Reason where
  | valid
  | clockSkewExceeded
  | notYetValid
  | expired
  | retiredKeyUsed
  | unknownKey
  | invalidSignature
  | malformedToken
  | missingRequiredClaim
  | policyNotFound
  | policyInactive
  | policyHashMismatch
  | malformedPresentation
  | unsupportedPresentation
  | internalError
  | credentialInvalid
  | policyMismatch
  | attributeNotMet
  | proofInvalid
  | publicInputMismatch
  | challengeExpired
deriving DecidableEq

namespace Reason

def name : Reason → String
  | .valid => "Valid"
  | .clockSkewExceeded => "ClockSkewExceeded"
  | .notYetValid => "NotYetValid"
  | .expired => "Expired"
  | .retiredKeyUsed => "RetiredKeyUsed"
  | .unknownKey => "UnknownKey"
  | .invalidSignature => "InvalidSignature"
  | .malformedToken => "MalformedJwt"
  | .missingRequiredClaim => "MissingRequiredClaim"
  | .policyNotFound => "PolicyNotFound"
  | .policyInactive => "PolicyInactive"
  | .policyHashMismatch => "PolicyHashMismatch"
  | .malformedPresentation => "MALFORMED_PRESENTATION"
  | .unsupportedPresentation => "UNSUPPORTED_PRESENTATION"
  | .internalError => "INTERNAL_ERROR"
  | .credentialInvalid => "VC_SIGNATURE_INVALID"
  | .policyMismatch => "POLICY_MISMATCH"
  | .attributeNotMet => "ATTRIBUTE_NOT_MET"
  | .proofInvalid => "PROOF_INVALID"
  | .publicInputMismatch => "PUBLIC_INPUT_MISMATCH"
  | .challengeExpired => "CHALLENGE_EXPIRED"

def number : Reason → Nat
  | .valid => 0
  | .clockSkewExceeded => 1
  | .notYetValid => 2
  | .expired => 3
  | .retiredKeyUsed => 4
  | .unknownKey => 5
  | .invalidSignature => 6
  | .malformedToken => 7
  | .missingRequiredClaim => 8
  | .policyNotFound => 9
  | .policyInactive => 10
  | .policyHashMismatch => 11
  | .malformedPresentation => 100
  | .unsupportedPresentation => 101
  | .internalError => 102
  | .credentialInvalid => 200
  | .policyMismatch => 201
  | .attributeNotMet => 202
  | .proofInvalid => 203
  | .publicInputMismatch => 204
  | .challengeExpired => 205

def all : List Reason :=
  [.valid, .clockSkewExceeded, .notYetValid, .expired, .retiredKeyUsed, .unknownKey,
    .invalidSignature, .malformedToken, .missingRequiredClaim, .policyNotFound, .policyInactive,
    .policyHashMismatch, .malformedPresentation, .unsupportedPresentation, .internalError,
    .credentialInvalid, .policyMismatch, .attributeNotMet, .proofInvalid, .publicInputMismatch,
    .challengeExpired]

def ofName? (s : String) : Option Reason := all.find? fun r => r.name = s

def ofNumber? (n : Nat) : Option Reason := all.find? fun r => r.number = n

theorem mem_all (r : Reason) : r ∈ all := by cases r <;> decide

theorem ofName?_name (r : Reason) : ofName? r.name = some r := by cases r <;> decide

theorem ofNumber?_number (r : Reason) : ofNumber? r.number = some r := by cases r <;> decide

end Reason

structure UnknownReason where
  name : String
deriving DecidableEq

def UnknownReason.message (e : UnknownReason) : String :=
  s!"unknown reason code: {Text.quoted e.name}"

def Reason.parse (s : String) : Except UnknownReason Reason :=
  match Reason.ofName? s with
  | some r => .ok r
  | none => .error ⟨s⟩

end Credentials
