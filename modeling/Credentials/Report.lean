import Credentials.Environment
import Credentials.Issuer

/-!
# Reports of failures

A failure is reported under a label for its cause, with its message and with what else is known. A
failure that only passes another one on is reported under the label of that one.
-/

namespace Credentials

structure Report where
  label : String
  message : String
  details : Json.Members

namespace Report

def plain (label message : String) : Report := ⟨label, message, []⟩

def json (r : Report) : Json :=
  .ofMembers ([("error", .string r.label), ("message", .string r.message)] ++ r.details)

end Report

def HexError.report (e : HexError) : Report := .plain "Hex" e.message

def InstantError.report (e : InstantError) : Report := .plain "InvalidTimestamp" e.message

def IdentifierError.report (e : IdentifierError) : Report := .plain "InvalidIdentifier" e.message

def UnknownReason.report (e : UnknownReason) : Report := .plain "UnknownReasonCode" e.message

def UnknownPresentationKind.report (e : UnknownPresentationKind) : Report :=
  .plain "UnknownPresentationKind" e.message

def Cancelled.report (e : Cancelled) : Report := .plain "Cancelled" e.message

def CanonicalizationError.report (e : CanonicalizationError) : Report :=
  let label := match e with
    | .invalidJson => "InvalidJson"
    | .trailingData => "TrailingData"
    | .serializationFailed => "SerializationFailed"
  .plain label e.message

def CommitmentError.report (e : CommitmentError) : Report :=
  match e with
  | .keyTooShort _ _ => .plain "KeyTooShort" e.message
  | .invalidKey _ => .plain "InvalidKey" e.message
  | .canonicalization cause => cause.report

def KeyError.report (e : KeyError) : Report :=
  let label := match e with
    | .signatureText _ => "InvalidSignature"
    | .signatureLength _ => "InvalidSignature"
    | .verificationFailed => "VerificationFailed"
    | _ => "KeyError"
  .plain label e.message

def KeyServiceError.report (e : KeyServiceError) : Report :=
  let label := match e with
    | .notFound _ => "KeyNotFound"
    | .duplicate _ => "DuplicateKey"
    | .retired _ => "KeyRetired"
    | .verificationOnly _ => "VerificationOnly"
    | .unavailable _ => "Unavailable"
    | .cancelled => "Cancelled"
  .plain label e.message

def PolicyError.report (e : PolicyError) : Report :=
  match e with
  | .canonicalization _ => .plain "Canonicalization" e.message
  | .unsigned => .plain "Unsigned" e.message
  | .badSignature _ => .plain "Signature" e.message
  | .invalidSchema => .plain "InvalidSchema" e.message
  | .signalsRejected n => ⟨"PublicSignalsRejected", e.message, [("count", .ofNat n)]⟩
  | _ => .plain "Invalid" e.message

def RegistryError.report (e : RegistryError) : Report :=
  match e with
  | .duplicateVersion _ _ => .plain "DuplicateVersion" e.message
  | .notFound _ => .plain "NotFound" e.message
  | .invalidTransition _ _ => .plain "InvalidTransition" e.message
  | .invalidDefinition cause => cause.report
  | .unavailable _ => .plain "Unavailable" e.message
  | .cancelled => .plain "Cancelled" e.message

def IssuanceError.report (e : IssuanceError) : Report :=
  let label := match e with
    | .policyNotFound _ => "PolicyNotFound"
    | .policyInactive _ _ => "PolicyInactive"
    | .noSigningKey => "NoSigningKey"
    | .expiryNotAfter _ _ => "InvalidExpiry"
    | .expiryOverflows => "InvalidExpiry"
    | .notBeforePrecedes _ _ => "InvalidNotBefore"
    | .notBeforeReaches _ _ => "InvalidNotBefore"
    | .registry _ => "Registry"
    | .keyService _ => "KeyService"
    | .policy _ => "Policy"
    | .token _ => "Token"
    | .canonicalization _ => "Canonicalization"
    | .cancelled => "Cancelled"
  ⟨label, e.message, [("reasonCode", (e.reason?.map Reason.json).getD .null),
    ("clientError", .bool e.isClientError)]⟩

def TokenError.report (e : TokenError) : Report :=
  let label := match e with
    | .segmentCount _ => "SegmentCount"
    | .notBase64 _ => "Base64"
    | .notAnObject _ => "NotAnObject"
    | .canonicalization _ => "Canonicalization"
  .plain label e.message

def ClaimProblem.report (e : ClaimProblem) : Report :=
  let label := match e with
    | .missing _ => "Missing"
    | .invalid _ => "Invalid"
  .plain label e.message

def ChallengeError.report (e : ChallengeError) : Report :=
  match e with
  | .commitment cause => cause.report
  | .invalidLifetime _ => .plain "InvalidTtl" e.message

def SettingsError.report (e : SettingsError) : Report :=
  let label := match e with
    | .missingChallengeKey => "MissingChallengeKey"
    | .invalidChallengeKey _ => "InvalidChallengeKey"
    | .invalidTimeout _ => "InvalidTimeout"
  .plain label e.message

end Credentials
