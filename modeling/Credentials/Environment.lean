import Credentials.Presentation.ZeroKnowledge
import Credentials.Validator

/-!
# Settings from the environment

Variables that tell how strict validation is and with which key challenges are committed to.
-/

namespace Credentials

abbrev Environment := String → Option String

namespace Environment

/-- A natural of 64 bits, with blanks around it and a plus sign allowed. -/
def natural? (s : String) : Option Nat :=
  (Decimal.unsigned? (Bytes.ofText (Text.trim s))).filter fun n => n < UInt64.size

/-- The clock skew that validation allows, in seconds. What cannot be read counts as unset. -/
def skew (env : Environment) : Nat :=
  ((env "PCRED_CLOCK_SKEW_SECS").bind natural?).getD defaultSkew

end Environment

inductive SettingsError where
  | missingChallengeKey
  | invalidChallengeKey (cause : CommitmentError)
  | invalidTimeout (text : String)
deriving DecidableEq

namespace SettingsError

def message : SettingsError → String
  | .missingChallengeKey => "PCRED_CHALLENGE_KEY_HEX is not set"
  | .invalidChallengeKey cause => s!"invalid challenge key: {cause.message}"
  | .invalidTimeout s => s!"invalid PCRED_PROOF_TIMEOUT_MS: {Text.quoted s}"

end SettingsError

namespace Environment

/-- The proof timeout in milliseconds, which has to be positive. -/
def proofTimeout (env : Environment) : Except SettingsError Nat :=
  match env "PCRED_PROOF_TIMEOUT_MS" with
  | none => .ok defaultProofTimeout
  | some s =>
    match natural? s with
    | some (n + 1) => .ok (n + 1)
    | _ => .error (.invalidTimeout s)

def zeroKnowledge (env : Environment) : Except SettingsError ZeroKnowledgeSettings :=
  match env "PCRED_CHALLENGE_KEY_HEX" with
  | none => .error .missingChallengeKey
  | some s =>
    match CommitmentKey.ofHex s with
    | .error e => .error (.invalidChallengeKey e)
    | .ok key => (env.proofTimeout).map fun n => ⟨key, n⟩

end Environment
end Credentials
