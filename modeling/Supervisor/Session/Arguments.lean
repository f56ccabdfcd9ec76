import Supervisor.Files.Path
/-!
# Arguments

The arguments of the command line: a mode, and the options that this mode takes. An option is written
long or short; short ones can share a hyphen, and a value stands in the same argument or in the next.
-/
namespace Supervisor.Session

inductive Mode
  | run (settingsFile : Option Path)
  | check (settingsFile : Option Path)
  | init (command : String) (force : Bool)
deriving DecidableEq, Repr

/-- Why the arguments name no mode to carry out. -/
inductive Usage
  | help
  | version
  | noMode
  | unknownMode (word : String)
  | unexpected (arg : String)
  | noValue (name : String)
  | unwantedValue (name : String)
  | repeated (name : String)
deriving DecidableEq, Repr

namespace Usage

/-- What was asked for is no failure. -/
def exitCode : Usage → Nat
  | .help | .version => 0
  | _ => 2

def message : Usage → String
  | .help | .noMode => "usage: warden [--debug] run [--config <file>] | check [--config <file>] | " ++
      "init [--server <command>] [--force]"
  | .version => "warden 0.1.0"
  | .unknownMode word => "error: unrecognized subcommand '" ++ word ++ "'"
  | .unexpected arg => "error: unexpected argument '" ++ arg ++ "' found"
  | .noValue name => "error: a value is required for '--" ++ name ++ "' but none was supplied"
  | .unwantedValue name => "error: unexpected value for '--" ++ name ++ "' found"
  | .repeated name => "error: the argument '--" ++ name ++ "' cannot be used multiple times"

end Usage

/-- An option that can be given. -/
structure Choice where
  name : String
  letter : Option Char := none
  takesValue : Bool := false
  mayBeEmpty : Bool := false

namespace Choice

def debug : Choice := { name := "debug", letter := some 'd' }

def help : Choice := { name := "help", letter := some 'h' }

def version : Choice := { name := "version", letter := some 'V' }

def config : Choice := { name := "config", letter := some 'c', takesValue := true }

def server : Choice := { name := "server", takesValue := true, mayBeEmpty := true }

def force : Choice := { name := "force", letter := some 'f' }

end Choice

/-- The options that were given, with their values. -/
abbrev Given := List (String × String)

namespace Given

def has (g : Given) (c : Choice) : Bool := (g.lookup c.name).isSome

def value? (g : Given) (c : Choice) : Option String := g.lookup c.name

/-- Every option can be given once; asking for help ends everything. -/
def add (g : Given) (c : Choice) (value : String) : Except Usage Given :=
  if c.name = Choice.help.name then .error .help
  else if c.name = Choice.version.name then .error .version
  else if g.has c then .error (.repeated c.name)
  else if c.takesValue && !c.mayBeEmpty && value = "" then .error (.noValue c.name)
  else .ok ((c.name, value) :: g)

end Given

/-- What the letters after a hyphen give, and the option whose value is in the next argument. -/
def readLetters (choices : List Choice) (arg : String) :
    Given → List Char → Except Usage (Given × Option Choice)
  | g, [] => .ok (g, none)
  | g, letter :: rest =>
    match choices.find? (·.letter == some letter) with
    | none => .error (.unexpected arg)
    | some c =>
      if c.takesValue then
        match rest with
        | [] => .ok (g, some c)
        | '=' :: value => (g.add c (String.ofList value)).map (·, none)
        | value => (g.add c (String.ofList value)).map (·, none)
      else do readLetters choices arg (← g.add c "") rest

/-- The same for an option that is written long. -/
def readLong (choices : List Choice) (arg : String) (g : Given) (cs : List Char) :
    Except Usage (Given × Option Choice) :=
  let name := String.ofList (cs.takeWhile (· != '='))
  match choices.find? (·.name == name), cs.dropWhile (· != '=') with
  | none, _ => .error (.unexpected arg)
  | some c, [] => if c.takesValue then .ok (g, some c) else (g.add c "").map (·, none)
  | some c, _ :: value =>
    if c.takesValue then (g.add c (String.ofList value)).map (·, none)
    else .error (.unwantedValue c.name)

/-- An option, if the argument is one or more of them. -/
def readOption? (choices : List Choice) (g : Given) (arg : String) :
    Option (Except Usage (Given × Option Choice)) :=
  match arg.toList with
  | '-' :: '-' :: cs => some (readLong choices arg g cs)
  | '-' :: c :: cs => some (readLetters choices arg g (c :: cs))
  | _ => none

/-- Can the argument be the value of the option before it? -/
def isValue (arg : String) : Bool :=
  match arg.toList with
  | '-' :: _ :: _ => false
  | _ => true

/-- The options at the beginning of the arguments, and what follows them. After `--` there are no
more options. -/
def readOptions (choices : List Choice) : Given → List String → Except Usage (Given × List String)
  | g, [] => .ok (g, [])
  | g, arg :: rest =>
    if arg = "--" then
      match rest with
      | [] => .ok (g, [])
      | word :: _ => .error (.unexpected word)
    else match readOption? choices g arg with
      | none => .ok (g, arg :: rest)
      | some (.error u) => .error u
      | some (.ok (g, none)) => readOptions choices g rest
      | some (.ok (g, some c)) =>
        match rest with
        | [] => .error (.noValue c.name)
        | value :: rest =>
          if isValue value then do readOptions choices (← g.add c value) rest
          else .error (.noValue c.name)

/-- All arguments are options. -/
def readAll (choices : List Choice) (args : List String) : Except Usage Given := do
  match ← readOptions (choices ++ [.debug, .help]) [] args with
  | (g, []) => return g
  | (_, arg :: _) => .error (.unexpected arg)

namespace Mode

/-- The command of the server if none is given. -/
def standardServer : String := "robotframework_ls"

def words : List String := ["run", "check", "init", "help"]

def settingsFile (g : Given) : Option Path := (g.value? .config).map Path.mk

/-- The mode with this word. -/
def ofWord (word : String) (args : List String) : Except Usage Mode :=
  if word = "run" then return .run (settingsFile (← readAll [.config] args))
  else if word = "check" then return .check (settingsFile (← readAll [.config] args))
  else if word = "init" then do
    let g ← readAll [.server, .force] args
    return .init ((g.value? .server).getD standardServer) (g.has .force)
  else if word = "help" then
    match args.find? (!words.contains ·) with
    | some other => .error (.unknownMode other)
    | none => .error .help
  else .error (.unknownMode word)

def ofArgs (args : List String) : Except Usage Mode := do
  match ← readOptions [.debug, .help, .version] [] args with
  | (_, []) => .error .noMode
  | (_, word :: rest) => ofWord word rest

end Mode

end Supervisor.Session
