import Credentials.Collaborators
import Credentials.Presentation.Basic

/-!
# The verification engine

The engine hands a presentation to the verifier of its kind and brings the outcome into normal form.
Unknown kinds are answers, not errors; a verifier that fails or breaks down gives an internal error
without detail; a signal that fires while a verifier runs cancels the request.
-/

namespace Credentials

structure Engine (W : Type) extends Surroundings W where
  /-- at most one verifier of each kind, in the order of the kinds -/
  verifiers : List (Verifier W)

namespace Engine

variable {W : Type}

def verifier? (e : Engine W) (k : PresentationKind) : Option (Verifier W) :=
  e.verifiers.find? fun v => v.kind = k

def kinds (e : Engine W) : List PresentationKind :=
  PresentationKind.all.filter fun k => (e.verifier? k).isSome

/-- Registers a verifier in place of any other of its kind. -/
def register (e : Engine W) (v : Verifier W) : Engine W :=
  { e with
    verifiers := PresentationKind.all.filterMap fun k =>
      if v.kind = k then some v else e.verifier? k }

def answer (k : PresentationKind) (now : Instant) :
    Except VerifierError Verdict → Except Cancelled VerificationResult
  | .ok v => .ok (.ofVerdict v now)
  | .error .cancelled => .error .mk
  | .error _ => .ok (.failure .internalError (some k.name) now)

/-- Runs a verifier; the signal is looked at again when it is done. -/
def dispatch (e : Engine W) (v : Verifier W) (presentation : Json) (now : Instant) :
    Step W Cancelled VerificationResult := fun w =>
  let (r, w) := v.verify presentation w
  if e.cancelled w then (.error .mk, w) else (answer v.kind now r, w)

def verify (e : Engine W) (q : VerificationRequest) : Step W Cancelled VerificationResult := do
  e.check .mk
  let now ← e.time
  match q.kind with
  | none => return .failure .malformedPresentation none now
  | some "" => return .failure .malformedPresentation none now
  | some name =>
    match (PresentationKind.ofName? name).bind e.verifier? with
    | none => return .failure .unsupportedPresentation none now
    | some v => e.dispatch v q.presentation now

end Engine
end Credentials
