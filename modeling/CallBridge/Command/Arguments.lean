import CallBridge.Path
import CallBridge.Settings

/-! # Command lines

What the words of a command line ask for. An option is settled when the next one begins or the line
ends; only then it is noticed that its value is missing or empty, or that it was given before. An
option that is not known ends the reading at once.
-/
namespace CallBridge.Command

inductive UsageStop where
  | help
  | version
  | nothingGiven
  | missingCommand
  | unknownCommand
  | unknownArgument
  | badValue
  | repeatedOption
  | unexpectedValue
  deriving DecidableEq, Repr, Inhabited

def UsageStop.exit : UsageStop → Nat
  | help | version => 0
  | _ => 2

inductive Switch where
  | verbose
  | help
  | version
  | config
  | format
  | output
  | denyWarnings
  deriving DecidableEq, Repr, Inhabited

namespace Switch

def long : Switch → String
  | verbose => "verbose"
  | help => "help"
  | version => "version"
  | config => "config"
  | format => "format"
  | output => "output"
  | denyWarnings => "deny-warnings"

def short? : Switch → Option Char
  | verbose => some 'v'
  | help => some 'h'
  | version => some 'V'
  | config => some 'c'
  | format => some 'f'
  | output => some 'o'
  | denyWarnings => none

def takesValue : Switch → Bool
  | config | format | output => true
  | _ => false

def takesPath : Switch → Bool
  | config | output => true
  | _ => false

end Switch

inductive Verb where
  | generate
  | check
  | init
  deriving DecidableEq, Repr, Inhabited

namespace Verb

def text : Verb → String
  | generate => "generate"
  | check => "check"
  | init => "init"

def ofText? (s : String) : Option Verb :=
  [generate, check, init].find? (·.text == s)

def switches : Verb → List Switch
  | generate => [.config, .format, .denyWarnings, .verbose, .help]
  | check => [.config, .format, .verbose, .help]
  | init => [.output, .verbose, .help]

def takesFiles : Verb → Bool
  | init => false
  | _ => true

end Verb

inductive Pending where
  | nothing
  | option (s : Switch) (value : Option String)
  | files (names : List String)
  deriving DecidableEq, Repr, Inhabited

structure Given where
  options : List (Switch × String) := []
  files : List String := []
  pending : Pending := .nothing
  deriving Repr, Inhabited

namespace Given

def value? (g : Given) (s : Switch) : Option String :=
  (g.options.find? (·.1 == s)).map (·.2)

def give (g : Given) (s : Switch) (value : String) : Except UsageStop Given :=
  if (g.value? s).isSome then .error .repeatedOption
  else if s.takesPath && value == "" then .error .badValue
  else .ok { g with options := g.options ++ [(s, value)] }

def settle (g : Given) : Except UsageStop Given :=
  match g.pending with
  | .nothing => .ok g
  | .option _ none => .error .badValue
  | .option s (some value) => { g with pending := .nothing }.give s value
  | .files names =>
    if names.contains "" then .error .badValue
    else .ok { g with files := g.files ++ names, pending := .nothing }

def attach (g : Given) (s : Switch) (value : String) : Except UsageStop Given := do
  (← g.settle).give s value

def begin (g : Given) (s : Switch) : Except UsageStop Given := do
  let g ← g.settle
  match s with
  | .help => throw .help
  | .version => throw .version
  | .verbose => return g
  | .denyWarnings => g.give s ""
  | _ => return { g with pending := .option s none }

def addFile (g : Given) (name : String) : Except UsageStop Given :=
  match g.pending with
  | .files names => .ok { g with pending := .files (names ++ [name]) }
  | _ => do return { ← g.settle with pending := .files [name] }

end Given

def splitAssign (cs : List Char) : String × Option String :=
  let name := String.ofList (cs.takeWhile (· ≠ '='))
  match cs.dropWhile (· ≠ '=') with
  | _ :: value => (name, some (String.ofList value))
  | [] => (name, none)

def readLong (switches : List Switch) (g : Given) (word : List Char) :
    Except UsageStop Given :=
  let (name, value?) := splitAssign word
  match switches.find? (·.long == name), value? with
  | none, _ => .error .unknownArgument
  | some s, none => g.begin s
  | some s, some value => if s.takesValue then g.attach s value else .error .unexpectedValue

def readShort (switches : List Switch) (g : Given) : List Char → Except UsageStop Given
  | [] => .ok g
  | c :: cs =>
    match switches.find? (·.short? == some c) with
    | none => .error .unknownArgument
    | some s =>
      if s.takesValue && !cs.isEmpty then
        g.attach s (String.ofList (if cs.head? == some '=' then cs.drop 1 else cs))
      else
        match g.begin s with
        | .ok g => readShort switches g cs
        | .error stop => .error stop

def awaitsValue : Pending → Option Switch
  | .option s none => some s
  | _ => none

def readWord (v : Verb) (plain : Bool) (g : Given) (word : String) :
    Except UsageStop Given :=
  let positional (g : Given) : Except UsageStop Given :=
    if v.takesFiles then g.addFile word else .error .unknownArgument
  match plain, word.toList with
  | false, '-' :: '-' :: long => readLong v.switches g long
  | false, '-' :: c :: short => readShort v.switches g (c :: short)
  | false, _ =>
    match awaitsValue g.pending with
    | some s => .ok { g with pending := .option s (some word) }
    | none => positional g
  | true, _ => positional g

/-- Read the words behind the name of a command. Behind `--` all words are plain. -/
def readWords (v : Verb) (plain : Bool) (g : Given) : List String → Except UsageStop Given
  | [] => g.settle
  | word :: rest =>
    if !plain && word == "--" then readWords v true g rest
    else
      match readWord v plain g word with
      | .ok g => readWords v plain g rest
      | .error stop => .error stop

structure RunOptions where
  files : List Path
  config : Option Path
  format : String
  denyWarnings : Bool
  deriving DecidableEq, Repr, Inhabited

inductive Request where
  | generate (options : RunOptions)
  | check (options : RunOptions)
  | init (output : Path)
  deriving DecidableEq, Repr, Inhabited

def Given.runOptions (g : Given) : RunOptions where
  files := g.files.map Path.mk
  config := (g.value? .config).map Path.mk
  format := (g.value? .format).getD "pretty"
  denyWarnings := (g.value? .denyWarnings).isSome

def Given.request (g : Given) : Verb → Request
  | .generate => .generate g.runOptions
  | .check => .check g.runOptions
  | .init => .init ⟨(g.value? .output).getD Settings.fileName⟩

private def readHelp : List String → UsageStop
  | [] => .help
  | [word] => if (Verb.ofText? word).isSome || word == "help" then .help else .unknownCommand
  | _ => .unknownCommand

def rootSwitches : List Switch :=
  [.verbose, .help, .version]

/-- Read a command line. `given` tells that an option stands in front, and behind `--` no command is
looked for. -/
def readLine (given plain : Bool) : List String → Except UsageStop Request
  | [] => .error (if given then .missingCommand else .nothingGiven)
  | word :: rest =>
    if plain then
      .error (if (Verb.ofText? word).isSome || word == "help" then .unknownArgument
        else .unknownCommand)
    else
      match Verb.ofText? word with
      | some v => (readWords v false {} rest).map (·.request v)
      | none =>
        if word == "help" then .error (readHelp rest)
        else if word == "--" then readLine given true rest
        else
          match word.toList with
          | '-' :: '-' :: long =>
            match readLong rootSwitches {} long with
            | .ok _ => readLine true false rest
            | .error stop => .error stop
          | '-' :: c :: short =>
            match readShort rootSwitches {} (c :: short) with
            | .ok _ => readLine true false rest
            | .error stop => .error stop
          | _ => .error .unknownCommand

def Request.ofArguments (arguments : List String) : Except UsageStop Request :=
  readLine false false arguments

end CallBridge.Command
