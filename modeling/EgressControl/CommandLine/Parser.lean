import EgressControl.CommandLine.Options
import EgressControl.Text.Split

/-! # Reading the arguments

`Command.parse` reads the arguments behind the program's name.  An option and its value are looked
at when the next option follows or the arguments end; an argument that cannot be understood at all
is told before that. -/

namespace EgressControl.CommandLine

/-- The options so far, and a setting that has been named but not yet looked at, with its value if
that has been read. -/
structure Reading where
  options : Options := {}
  waiting : Option (Setting × Option String) := none
  deriving DecidableEq

namespace Reading

/-- Looks at the setting that waits. -/
def settle (r : Reading) : Except UsageError Options :=
  match r.waiting with
  | none => .ok r.options
  | some (_, none) => .error .invalidValue
  | some (s, some v) => r.options.set s v

/-- A setting is named; its value is the next argument. -/
def name (r : Reading) (s : Setting) : Except UsageError Reading :=
  match r.settle with
  | .error e => .error e
  | .ok options => .ok { options, waiting := some (s, none) }

/-- A setting is named, and its value with it. -/
def assign (r : Reading) (s : Setting) (v : String) : Except UsageError Reading :=
  match r.settle with
  | .error e => .error e
  | .ok options =>
    match options.set s v with
    | .error e => .error e
    | .ok options => .ok { options }

/-- The switch is turned on. -/
def turnOn (r : Reading) : Except UsageError Reading :=
  match r.settle with
  | .error e => .error e
  | .ok options =>
    match options.setVerbose with
    | .error e => .error e
    | .ok options => .ok { options }

/-- Help is asked for. -/
def askHelp (r : Reading) : Except UsageError Reading :=
  match r.settle with
  | .error e => .error e
  | .ok _ => .error .displayHelp

/-- Takes in an option behind two dashes, perhaps with `=` and a value. -/
def stepLong (r : Reading) (body : List Char) : Except UsageError Reading :=
  let (key, value) := match Text.cutFirst '=' body with
    | some (key, value) => (key, some (String.ofList value))
    | none => (body, none)
  match Flag.ofLongName? (.ofList key), value with
  | none, _ => .error .unknownArgument
  | some (.setting s), some v => r.assign s v
  | some (.setting s), none => r.name s
  | some .verbose, none => r.turnOn
  | some .help, none => r.askHelp
  | some _, some _ => .error .tooManyValues

/-- Takes in letters behind one dash.  What follows the letter of a setting is its value. -/
def stepLetters (r : Reading) : List Char → Except UsageError Reading
  | [] => .ok r
  | c :: rest =>
    match Flag.ofLetter? c with
    | none => .error .unknownArgument
    | some .help => r.askHelp
    | some .verbose =>
      match r.turnOn with
      | .error e => .error e
      | .ok r => r.stepLetters rest
    | some (.setting s) =>
      match rest with
      | [] => r.name s
      | '=' :: value => r.assign s (.ofList value)
      | value => r.assign s (.ofList value)

/-- Takes in an argument that is no option: the value of the setting that waits for one. -/
def stepValue (r : Reading) (arg : String) : Except UsageError Reading :=
  match r.waiting with
  | some (s, none) => .ok { r with waiting := some (s, some arg) }
  | _ => .error .unknownArgument

/-- Takes in an argument. -/
def step (r : Reading) (arg : String) : Except UsageError Reading :=
  match arg.toList with
  -- A dash alone is a value like any other.
  | '-' :: '-' :: body => r.stepLong body
  | '-' :: c :: rest => r.stepLetters (c :: rest)
  | _ => r.stepValue arg

/-- Takes in all arguments.  Behind `--` only arguments without a name may stand, and there are
none. -/
def run (r : Reading) : List String → Except UsageError Options
  | [] => r.settle
  | arg :: rest =>
    if arg = "--" then
      match rest with
      | [] => r.settle
      | _ :: _ => .error .unknownArgument
    else
      match r.step arg with
      | .error e => .error e
      | .ok r => r.run rest

end Reading

/-- Reads the options of the command `run`. -/
def Options.parse (args : List String) : Except UsageError Options := Reading.run {} args

namespace Command

/-- The names of the commands. -/
def names : List String := ["run", "help"]

/-- The answer to `help` with some words behind it. -/
def helpOn : List String → UsageError
  | [] => .displayHelp
  | [word] => if names.contains word then .displayHelp else .invalidCommand
  | _ :: _ :: _ => .invalidCommand

/-- The answer to letters in front of a command. -/
def ofLetters : List Char → UsageError
  | 'h' :: _ => .displayHelp
  | 'V' :: _ => .displayVersion
  | _ => .unknownArgument

/-- The answer to an option in front of a command. -/
def ofLong (body : List Char) : UsageError :=
  let (key, value) := match Text.cutFirst '=' body with
    | some (key, value) => (key, some value)
    | none => (body, none)
  let known := if key = "help".toList then some UsageError.displayHelp
    else if key = "version".toList then some .displayVersion
    else none
  match known, value with
  | none, _ => .unknownArgument
  | some e, none => e
  | some _, some _ => .tooManyValues

/-- Reads all arguments.  The only command that does something is `run`. -/
def parse : List String → Except UsageError Options
  | [] | ["--"] => .error .missingCommand
  | "--" :: word :: _ =>
    .error (if names.contains word then .unknownArgument else .invalidCommand)
  | "run" :: args => Options.parse args
  | "help" :: words => .error (helpOn words)
  | word :: _ =>
    match word.toList with
    | '-' :: '-' :: body => .error (ofLong body)
    | '-' :: c :: rest => .error (ofLetters (c :: rest))
    | _ => .error .invalidCommand

end Command

end EgressControl.CommandLine
