import Credentials.CommandLine.Arguments
import Credentials.CommandLine.Run

/-!
# What the program replies

The exit status, one document on success or refusal, and one line about a failure.
-/

namespace Credentials

structure Reply where
  exitStatus : Nat
  body : Option Json
  error : Option String

namespace Reply

def ofUsage (u : Usage) : Reply := ⟨u.exitStatus, none, none⟩

def ofOutcome : Except CommandError Outcome → Reply
  | .ok o => ⟨o.exitStatus, some o.body, none⟩
  | .error e => ⟨CommandError.exitStatus, none, some e.message⟩

end Reply

def Invocation.variableNames (m : Machine) (i : Invocation) : List String :=
  let configured := match i.command.needsConfig, Command.configOf m i.config with
    | true, .ok c => c.variableNames
    | _, _ => []
  i.command.variableNames ++ configured

def reply (m : Machine) (args : List String) : Reply :=
  match Invocation.parse args with
  | .error u => .ofUsage u
  | .ok i => .ofOutcome (i.command.run m i.config)

end Credentials
