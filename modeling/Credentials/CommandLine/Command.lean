import Credentials.Trust.Building

/-!
# Commands

What a command is asked, what it needs of the machine, and what it answers: one document and an exit
status. A refused credential or presentation is an answer with a status of its own; only failures to
do the work are errors.
-/

namespace Credentials

structure IssueOptions where
  policy : String
  version : Option UInt32
  subject : String
  /-- the file that holds the claims -/
  claims : Option String
  deviceTag : Option String
  expiresAt : Option String
  notBefore : Option String
deriving DecidableEq

inductive Command where
  | hash (file : String)
  | commit (file keyVariable : String)
  | generateKey (keyId : String)
  | issue (options : IssueOptions)
  | validate (token tokenFile : Option String)
  | challenge (policy : String) (audience : Option String) (lifetime : Option Int)
  | verify (file : String)
deriving DecidableEq

namespace Command

/-- The variable that holds the commitment key unless set otherwise. -/
def defaultKeyVariable : String := "PCRED_COMMITMENT_KEY_HEX"

def name : Command → String
  | .hash _ => "hash"
  | .commit _ _ => "commit"
  | .generateKey _ => "keygen"
  | .issue _ => "issue"
  | .validate _ _ => "validate"
  | .challenge _ _ _ => "challenge"
  | .verify _ => "verify"

def needsConfig : Command → Bool
  | .hash _ => false
  | .commit _ _ => false
  | .generateKey _ => false
  | _ => true

def files : Command → List String
  | .hash file => [file]
  | .commit file _ => [file]
  | .issue o => o.claims.toList
  | .validate none file => file.toList
  | .verify file => [file]
  | _ => []

def variableNames : Command → List String
  | .commit _ v => [v]
  | _ => []

end Command

/-- What a command sees of the machine that it runs on. -/
structure Machine where
  /-- the content of a file, or why it cannot be read -/
  file : String → Except String Bytes
  input : Bytes
  environment : Environment
  now : Instant
  /-- fresh bytes, by their number -/
  random : Nat → UInt8
  cancelled : Bool

namespace Machine

def noSuchFile : String := "No such file or directory (os error 2)"

/-- The content of a file; a hyphen names the standard input. -/
def read (m : Machine) (path : String) : Except String Bytes :=
  if path = "-" then .ok m.input else m.file path

def randomBytes (m : Machine) (start count : Nat) : Bytes :=
  (List.range count).map fun n => m.random (start + n)

def world (m : Machine) : World := { World.initial m.now with cancelled := m.cancelled }

end Machine

structure Outcome where
  body : Json
  /-- whether a credential or presentation was refused -/
  refused : Bool

namespace Outcome

def done (body : Json) : Outcome := ⟨body, false⟩

def exitStatus (o : Outcome) : Nat := if o.refused then 2 else 0

end Outcome

inductive CommandError where
  | unreadable (path cause : String)
  | noConfig
  | unreadableConfig (path cause : String)
  | invalidConfig (path : String)
  | trust (cause : TrustError)
  | hash (path : String) (cause : CanonicalizationError)
  | keyUnset (name : String)
  | keyText (cause : HexError)
  | commitment (cause : CommitmentError)
  | identifier (cause : IdentifierError)
  | instant (cause : InstantError)
  | claimsText (path : String)
  | claimsNoObject (path : String)
  | issuance (cause : IssuanceError)
  | noToken
  | tokenText
  | challenge (cause : ChallengeError)
  | invalidRequest (path : String)
  | cancelled
deriving DecidableEq

namespace CommandError

def message : CommandError → String
  | .unreadable path cause => s!"failed to read {path}: {cause}"
  | .noConfig => "this subcommand needs --config <TRUST_CONFIG>"
  | .unreadableConfig path cause => s!"failed to read trust config: {path}: {cause}"
  | .invalidConfig path => s!"invalid trust config: {path}"
  | .trust cause => cause.message
  | .hash path cause => s!"cannot hash {path}: {cause.message}"
  | .keyUnset v => s!"{v} is not set: {Environment.unset}"
  | .keyText cause => s!"commitment key is not hex: {cause.message}"
  | .commitment cause => cause.message
  | .identifier cause => cause.message
  | .instant cause => cause.message
  | .claimsText path => s!"invalid JSON in {path}"
  | .claimsNoObject path => s!"claims file must hold a JSON object: {path}"
  | .issuance cause => s!"issuance failed: {cause.message}"
  | .noToken => "pass --token or --token-file"
  | .tokenText => "token is not UTF-8"
  | .challenge cause => cause.message
  | .invalidRequest path => s!"invalid verification request: {path}"
  | .cancelled => Cancelled.mk.message

def exitStatus : Nat := 1

end CommandError

end Credentials
