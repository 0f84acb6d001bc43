/-! # Options of the command line

The command `run` takes a number of settings, each with a value, and a switch.  `Setting` lists
the settings, with what is allowed for each of them. -/

namespace EgressControl.CommandLine

/-- What can be set. -/
inductive Setting where
  | mode
  | allowedHosts
  | allowedIps
  | allowSuffix
  | ebpfObject
  | attach
  | resolvConf
  | reportFile
  | output
  deriving DecidableEq, Repr

namespace Setting

/-- Every setting. -/
def all : List Setting :=
  [mode, allowedHosts, allowedIps, allowSuffix, ebpfObject, attach, resolvConf, reportFile, output]

/-- The name behind two dashes. -/
def longName : Setting → String
  | mode => "mode"
  | allowedHosts => "allowed-hosts"
  | allowedIps => "allowed-ips"
  | allowSuffix => "allow-suffix"
  | ebpfObject => "ebpf-object"
  | attach => "attach"
  | resolvConf => "resolv-conf"
  | reportFile => "report-file"
  | output => "output"

/-- The letter behind one dash. -/
def letter? : Setting → Option Char
  | output => some 'o'
  | _ => none

/-- Whether a setting may be given several times. -/
def isRepeatable : Setting → Bool
  | allowSuffix | attach => true
  | _ => false

/-- Whether the value of a setting is a path, which cannot be empty. -/
def isPath : Setting → Bool
  | ebpfObject | resolvConf | reportFile | output => true
  | _ => false

end Setting

/-- An option: a setting, the switch for more lines in the log, or a question. -/
inductive Flag where
  | setting (s : Setting)
  | verbose
  | help
  deriving DecidableEq, Repr

namespace Flag

/-- The option with a name. -/
def ofLongName? (name : String) : Option Flag :=
  if name = "verbose" then some verbose
  else if name = "help" then some help
  else (Setting.all.find? (·.longName = name)).map setting

/-- The option with a letter. -/
def ofLetter? (c : Char) : Option Flag :=
  if c = 'v' then some verbose
  else if c = 'h' then some help
  else (Setting.all.find? (·.letter? = some c)).map setting

end Flag

/-- Why arguments are not carried out. -/
inductive UsageError where
  /-- Help is asked for. -/
  | displayHelp
  /-- The version is asked for. -/
  | displayVersion
  /-- There is no argument at all. -/
  | missingCommand
  | invalidCommand
  | unknownArgument
  /-- A value is missing, or it cannot be empty. -/
  | invalidValue
  /-- There is a value where none belongs. -/
  | tooManyValues
  /-- An option is given twice. -/
  | argumentConflict
  deriving DecidableEq, Repr

/-- What the user has set: settings with their values in the order in which they were given, and
the switch. -/
structure Options where
  values : List (Setting × String) := []
  verbose : Bool := false
  deriving DecidableEq

namespace Options

/-- The values of a setting. -/
def valuesOf (o : Options) (s : Setting) : List String :=
  (o.values.filter (·.1 = s)).map (·.2)

/-- The value of a setting that is given once. -/
def value? (o : Options) (s : Setting) : Option String := (o.valuesOf s).head?

/-- Takes in the value of a setting. -/
def set (o : Options) (s : Setting) (v : String) : Except UsageError Options :=
  -- That a setting is given twice is told before its value is looked at.
  if !s.isRepeatable ∧ (o.value? s).isSome then .error .argumentConflict
  else if s.isPath ∧ v.isEmpty then .error .invalidValue
  else .ok { o with values := o.values ++ [(s, v)] }

/-- Turns the switch on. -/
def setVerbose (o : Options) : Except UsageError Options :=
  if o.verbose then .error .argumentConflict else .ok { o with verbose := true }

end Options

end EgressControl.CommandLine
