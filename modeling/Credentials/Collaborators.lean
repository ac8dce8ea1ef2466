import Credentials.Policy.Registry

/-!
# Collaborators

What issuing and verifying ask of others: keys, signatures, policies and proofs. Each is a step on a
world about which nothing else is known, so that others may act between two steps.
-/

namespace Credentials

/-- What a run can see of its world by itself. -/
structure Surroundings (W : Type) where
  cancelled : W → Bool
  now : W → Instant

structure KeyDirectory (W : Type) where
  current : Step W KeyServiceError (Option IssuerKey)
  find : KeyId → Step W KeyServiceError (Option IssuerKey)

abbrev Signer (W : Type) := KeyId → Canonical → Step W KeyServiceError Signature

/-- Look-up of a policy at a version, or of its current version. -/
abbrev PolicyDirectory (W : Type) :=
  PolicyId → Option PolicyVersion → Step W RegistryError (Option PolicyDefinition)

namespace Surroundings

variable {W ε α : Type}

def check (s : Surroundings W) (cause : ε) : Step W ε Unit := Step.check s.cancelled cause

/-- A collaborator's step, not begun once the signal has fired. -/
def guarded (s : Surroundings W) (cause : ε) (step : Step W ε α) : Step W ε α :=
  Step.guarded s.cancelled cause step

def time (s : Surroundings W) : Step W ε Instant := Step.look s.now

end Surroundings
end Credentials
