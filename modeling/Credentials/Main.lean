import Credentials.CommandLine.Reply
import Credentials.Json.Pretty
import Std.Time.DateTime.Timestamp

/-!
# The program

The outer layer of the command line: it reads the files and variables that an invocation names, the
time and fresh bytes, hands them to the command as a machine, and prints the reply.
-/

namespace Credentials.Main

def usage : String :=
  "Usage: pcred [OPTIONS] <COMMAND>\n\nCommands:\n"
    ++ "  hash       Canonical SHA-256 of a JSON document\n"
    ++ "  commit     Keyed commitment to a JSON document\n"
    ++ "  keygen     Generate a signing key\n"
    ++ "  issue      Issue a policy credential\n"
    ++ "  validate   Validate a credential token\n"
    ++ "  challenge  Issue a committed challenge\n"
    ++ "  verify     Verify a presentation\n\nOptions:\n"
    ++ "  -v, --verbose          Verbose output, may be repeated\n"
    ++ "      --json-logs        Logs as JSON lines\n"
    ++ "      --config <CONFIG>  The trust configuration\n"
    ++ "  -h, --help             Print help\n"
    ++ "  -V, --version          Print version\n"

def sayUsage : Usage → IO Unit
  | .help => IO.print usage
  | .version => IO.println "pcred 0.1.0"
  | .wrong => IO.eprint usage

partial def readAll (s : IO.FS.Stream) (done : ByteArray) : IO ByteArray := do
  let b ← s.read 65536
  if b.isEmpty then return done else readAll s (done ++ b)

def readFile (path : String) : IO (Except String Bytes) := do
  try
    let b ← IO.FS.readBinFile path
    return .ok b.toList
  catch
    | .noFileOrDirectory _ _ _ => return .error Machine.noSuchFile
    | e => return .error (toString e)

/-- A finite table as a function; what is not in it has the value given. -/
def lookUp {α : Type} (table : List (String × α)) (name : String) : Option α :=
  (table.find? fun p => p.1 = name).map (·.2)

def now : IO Instant := do
  let t ← Std.Time.Timestamp.now
  return (Instant.ofEpoch? t.toSecondsSinceUnixEpoch.val).getD .greatest

def machineFor (i : Invocation) : IO Machine := do
  let files ← i.files.mapM fun path => do return (path, ← readFile path)
  let input ← if i.command.files.contains "-" then readAll (← IO.getStdin) ByteArray.empty
    else pure ByteArray.empty
  let fresh ← IO.getRandomBytes 64
  let time ← now
  let m : Machine := {
    file := fun path => (lookUp files path).getD (.error Machine.noSuchFile)
    input := input.toList
    environment := fun _ => none
    now := time
    random := fun n => fresh.toList.getD n 0
    cancelled := false }
  let values ← (i.variableNames m).mapM fun v => do return (v, ← IO.getEnv v)
  return { m with environment := fun v => (lookUp values v).join }

def report (r : Reply) : IO UInt32 := do
  match r.body with
  | some v => IO.println ((Bytes.text? (v.pretty 0)).getD "")
  | none => pure ()
  match r.error with
  | some e => IO.eprintln ("error: " ++ e)
  | none => pure ()
  return UInt32.ofNat r.exitStatus

def run (args : List String) : IO UInt32 := do
  match Invocation.parse args with
  | .error u =>
    sayUsage u
    report (.ofUsage u)
  | .ok i => report (.ofOutcome (i.command.run (← machineFor i) i.config))

end Credentials.Main

def main (args : List String) : IO UInt32 := Credentials.Main.run args
