import Credentials.Signal
import Credentials.Wire

/-!
# Presentations

A presentation comes with the name of its kind. What a verifier concludes is a verdict; what is
answered is the verdict in normal form: never without a code, valid only with the one code that says
so, and naming an issuer only when valid.
-/

namespace Credentials

open Json (Written Record)

inductive PresentationKind where
  /-- a signed credential -/
  | credential
  /-- a zero-knowledge proof that answers a challenge -/
  | zeroKnowledge
deriving DecidableEq

structure UnknownPresentationKind where
  name : String
deriving DecidableEq

def UnknownPresentationKind.message (e : UnknownPresentationKind) : String :=
  s!"unknown presentation type: {e.name}"

namespace PresentationKind

def name : PresentationKind → String
  | .credential => "legacy-vc"
  | .zeroKnowledge => "zkp"

/-- All kinds, in the order in which they are listed. -/
def all : List PresentationKind := [.credential, .zeroKnowledge]

def ofName? (s : String) : Option PresentationKind := all.find? fun k => k.name = s

def parse (s : String) : Except UnknownPresentationKind PresentationKind :=
  match ofName? s with
  | some k => .ok k
  | none => .error ⟨s⟩

def json (k : PresentationKind) : Json := .string k.name

def ofWritten? (w : Written) : Option PresentationKind := w.tag?.bind ofName?

theorem ofName?_name (k : PresentationKind) : ofName? k.name = some k := by cases k <;> decide

end PresentationKind

structure VerificationRequest where
  kind : Option String
  presentation : Json

namespace VerificationRequest

/-- A missing value is written as null. -/
def json (q : VerificationRequest) : Json :=
  .ofMembers [("presentationType", (q.kind.map Json.string).getD .null),
    ("presentation", q.presentation)]

def ofWritten? (w : Written) : Option VerificationRequest := do
  let r ← Record.read ["presentationType", "presentation"] w
  return {
    kind := ← r.defaulted "presentationType" none (Written.nullable Written.text?)
    presentation := ← r.defaulted "presentation" .null (Written.jsonWithin (Json.maxDepth - 1)) }

end VerificationRequest

structure Verdict where
  reasons : List Reason
  evidence : Option String
  issuer : Option String
deriving DecidableEq

namespace Verdict

def accept (kind : PresentationKind) (issuer : Option String) : Verdict :=
  ⟨[.valid], some kind.name, issuer⟩

def reject (kind : PresentationKind) (reasons : List Reason) : Verdict :=
  ⟨reasons, some kind.name, none⟩

def isValid (v : Verdict) : Bool := v.reasons == [.valid]

end Verdict

structure VerificationResult where
  valid : Bool
  reasons : List Reason
  evidence : Option String
  issuer : Option String
  time : Instant
deriving DecidableEq

namespace VerificationResult

def ofVerdict (v : Verdict) (now : Instant) : VerificationResult :=
  { valid := v.isValid
    reasons := if v.reasons.isEmpty then [.internalError] else v.reasons
    evidence := v.evidence
    issuer := if v.isValid then v.issuer else none
    time := now }

def failure (r : Reason) (evidence : Option String) (now : Instant) : VerificationResult :=
  ⟨false, [r], evidence, none, now⟩

/-- Missing values are written as null. -/
def json (r : VerificationResult) : Json :=
  .ofMembers [("valid", .bool r.valid), ("reasonCodes", .array (r.reasons.map Reason.json)),
    ("evidenceType", (r.evidence.map Json.string).getD .null),
    ("issuer", (r.issuer.map Json.string).getD .null), ("timestampUtc", r.time.json)]

def ofWritten? (w : Written) : Option VerificationResult := do
  let r ← Record.read ["valid", "reasonCodes", "evidenceType", "issuer", "timestampUtc"] w
  return {
    valid := ← r.required "valid" Written.bool?
    reasons := ← r.required "reasonCodes" (Written.list? Reason.ofWritten?)
    evidence := ← r.optional "evidenceType" Written.text?
    issuer := ← r.optional "issuer" Written.text?
    time := ← r.required "timestampUtc" Instant.ofWritten? }

end VerificationResult

inductive VerifierError where
  /-- a collaborator failed -/
  | dependency (detail : String)
  /-- the verifier broke down -/
  | crashed
  | cancelled
deriving DecidableEq

namespace VerifierError

def message : VerifierError → String
  | .dependency detail => s!"dependency failure: {detail}"
  | .crashed => "verifier crashed"
  | .cancelled => Cancelled.mk.message

end VerifierError

structure Verifier (W : Type) where
  kind : PresentationKind
  verify : Json → Step W VerifierError Verdict

end Credentials
