import Credentials.CommandLine.Command

/-!
# Reading a command line

Options with two hyphens take their value after an equals sign or from the next argument; those with
one hyphen are flags and may be joined. Options that belong to no command in particular stand before
or behind the name of the command, where the later value counts. Two hyphens alone end the options.
What is read first is judged first, so a call for help counts only where nothing before it is wrong.
-/

namespace Credentials

inductive Usage where
  | help
  | version
  | wrong
deriving DecidableEq

/-- The exit status; help and version are what was asked for. -/
def Usage.exitStatus : Usage → Nat
  | .help => 0
  | .version => 0
  | .wrong => 2

inductive OptionKind where
  /-- stands at most once -/
  | flag
  /-- may be repeated -/
  | counter
  | text
  /-- the name of a file, which is not empty -/
  | path
  | integer (least greatest : Int)
deriving DecidableEq

namespace OptionKind

def takesValue : OptionKind → Bool
  | .flag => false
  | .counter => false
  | _ => true

def admits (v : String) : OptionKind → Bool
  | .path => !v.isEmpty
  | .integer least greatest =>
    match Decimal.signed? (Bytes.ofText v) with
    | some n => least ≤ n && n ≤ greatest
    | none => false
  | _ => true

end OptionKind

abbrev Options := List (String × OptionKind)

structure Arguments where
  options : List (String × String)
  operands : List String

namespace Arguments

def none : Arguments := ⟨[], []⟩

def get? (a : Arguments) (name : String) : Option String :=
  (a.options.find? fun o => o.1 = name).map (·.2)

def integer? (a : Arguments) (name : String) : Option Int :=
  (a.get? name).bind fun s => Decimal.signed? (Bytes.ofText s)

def required (a : Arguments) (name : String) : Except Usage String :=
  match a.get? name with
  | some v => .ok v
  | .none => .error .wrong

def add (a : Arguments) (name : String) (kind : OptionKind) (value : String) :
    Except Usage Arguments :=
  if (kind ≠ .counter ∧ (a.get? name).isSome) ∨ kind.admits value = false then .error .wrong
  else .ok { a with options := (name, value) :: a.options }

/-- Notes an operand, of which there are at most so many; operands name files. -/
def addOperand (a : Arguments) (most : Nat) (value : String) : Except Usage Arguments :=
  if most ≤ a.operands.length ∨ value.isEmpty then .error .wrong
  else .ok { a with operands := a.operands ++ [value] }

def addFlags (a : Arguments) (top : Bool) : List Char → Except Usage Arguments
  | [] => .ok a
  | 'v' :: r => do addFlags (← a.add "verbose" .counter "") top r
  | 'h' :: _ => .error .help
  | 'V' :: _ => .error (if top then .version else .wrong)
  | _ => .error .wrong

end Arguments

inductive ArgumentForm where
  | endOfOptions
  | long (name : String) (value : Option String)
  | short (flags : List Char)
  | operand
deriving DecidableEq

namespace ArgumentForm

def of (arg : String) : ArgumentForm :=
  match arg.toList with
  | '-' :: '-' :: [] => .endOfOptions
  | '-' :: '-' :: r =>
    let value := match r.dropWhile (· ≠ '=') with
      | _ :: v => some (String.ofList v)
      | [] => none
    .long (String.ofList (r.takeWhile (· ≠ '='))) value
  | '-' :: c :: r => .short (c :: r)
  | _ => .operand

end ArgumentForm

namespace Arguments

/-- Notes an option given by its name, with the arguments after it; its value may be the next. -/
def addLong (a : Arguments) (top : Bool) (options : Options) (name : String)
    (value : Option String) (rest : List String) : Except Usage (Arguments × Bool) :=
  if value.isNone ∧ name = "help" then .error .help
  else if value.isNone ∧ top ∧ name = "version" then .error .version
  else match (options.find? fun o => o.1 = name).map (·.2) with
    | .none => .error .wrong
    | some kind =>
      match kind.takesValue, value, rest with
      | false, .none, _ => (a.add name kind "").map (·, false)
      | true, some v, _ => (a.add name kind v).map (·, false)
      | true, .none, v :: _ =>
        if ArgumentForm.of v = .operand then (a.add name kind v).map (·, true) else .error .wrong
      | _, _, _ => .error .wrong

/-- Reads options and operands. Before the name of the command, reading stops at the first operand.
The second result is what was not read. -/
def readFrom (top : Bool) (options : Options) (most : Nat) (a : Arguments) :
    List String → Except Usage (Arguments × List String)
  | [] => .ok (a, [])
  | s :: r =>
    match ArgumentForm.of s with
    | .endOfOptions =>
      if top then .error .wrong else (r.foldlM (fun (b : Arguments) s => b.addOperand most s) a).map (·, [])
    | .short flags => do readFrom top options most (← a.addFlags top flags) r
    | .long name value => do
      let (a, takesNext) ← a.addLong top options name value r
      match takesNext, r with
      | true, _ :: r => readFrom top options most a r
      | _, r => readFrom top options most a r
    | .operand =>
      if top then .ok (a, s :: r) else do readFrom top options most (← a.addOperand most s) r

end Arguments

structure Invocation where
  config : Option String
  command : Command
deriving DecidableEq

namespace Invocation

def globals : Options := [("verbose", .counter), ("json-logs", .flag), ("config", .path)]

def shapeOf : String → Option (Options × Nat)
  | "hash" => some ([], 1)
  | "commit" => some ([("key-env", .text)], 1)
  | "keygen" => some ([("key-id", .text)], 0)
  | "issue" => some ([("policy", .text), ("policy-version", .integer 0 (Int.pow 2 32 - 1)),
      ("subject", .text), ("claims", .path), ("device-tag", .text), ("expires-at", .text),
      ("not-before", .text)], 0)
  | "validate" => some ([("token", .text), ("token-file", .path)], 0)
  | "challenge" => some ([("policy", .text), ("audience", .text),
      ("ttl-secs", .integer (-(Int.pow 2 63)) (Int.pow 2 63 - 1))], 0)
  | "verify" => some ([], 1)
  | _ => none

/-- The command with a name and arguments; what it needs has to be there. -/
def commandOf (name : String) (a : Arguments) : Except Usage Command :=
  match name, a.operands with
  | "hash", [file] => .ok (.hash file)
  | "commit", [file] =>
    .ok (.commit file ((a.get? "key-env").getD Command.defaultKeyVariable))
  | "keygen", _ => (a.required "key-id").map .generateKey
  | "issue", _ => do
    return .issue {
      policy := ← a.required "policy"
      version := (a.integer? "policy-version").map fun n => UInt32.ofNat n.toNat
      subject := ← a.required "subject"
      claims := a.get? "claims"
      deviceTag := a.get? "device-tag"
      expiresAt := a.get? "expires-at"
      notBefore := a.get? "not-before" }
  | "validate", _ =>
    match a.get? "token", a.get? "token-file" with
    | some _, some _ => .error .wrong
    | token, file => .ok (.validate token file)
  | "challenge", _ => do
    return .challenge (← a.required "policy") (a.get? "audience") (a.integer? "ttl-secs")
  | "verify", [file] => .ok (.verify file)
  | _, _ => .error .wrong

def helpOn : List String → Usage
  | [] => .help
  | [name] => if (shapeOf name).isSome ∨ name = "help" then .help else .wrong
  | _ => .wrong

def parse (args : List String) : Except Usage Invocation := do
  match ← Arguments.readFrom true globals 0 .none args with
  | (_, []) => throw .wrong
  | (_, "help" :: r) => throw (helpOn r)
  | (top, name :: r) =>
    match shapeOf name with
    | none => throw .wrong
    | some (options, operands) => do
      let (a, _) ← Arguments.readFrom false (globals ++ options) operands .none r
      let command ← commandOf name a
      return ⟨(a.get? "config").orElse fun _ => top.get? "config", command⟩

/-- The files that are read when it runs. -/
def files (i : Invocation) : List String :=
  (if i.command.needsConfig then i.config.toList else []) ++ i.command.files

end Invocation
end Credentials
