import EgressControl.Error.Kernel
import EgressControl.Text.Quoted

/-! # Failures that end a run

A run that cannot be set up ends with one `SetupError`.  `chain` lists its message and the
messages of what lies behind it; a failure of the configuration or of an attachment stands for
itself in the chain. -/

namespace EgressControl

/-- Why what the user asked for makes no configuration. -/
inductive ConfigError where
  | missingMode
  | invalidMode (text : String)
  | invalidOverride (item : String)
  deriving DecidableEq, Repr

/-- The wording of the failure. -/
def ConfigError.message : ConfigError → String
  | missingMode => "[mode] flag is required"
  | invalidMode text => "[mode] flag is invalid: " ++ text
  | invalidOverride item =>
    "invalid attach override '" ++ item ++ "', expected <program>=<target>"

/-- Why a program could not be attached to its hook. -/
inductive AttachError where
  /-- The kernel did not take the program. -/
  | load (program : String) (cause : ProgramError)
  /-- The program was taken, but not bound to the hook. -/
  | link (program : String) (cause : ProgramError)
  /-- The kernel's type information could not be read. -/
  | typeInfo (program path : String) (cause : IoError)
  /-- The control group could not be opened. -/
  | cgroup (path : String) (cause : IoError)
  /-- The target is not one for this kind of program. -/
  | targetMismatch (program target : String)
  deriving DecidableEq, Repr

namespace AttachError

/-- The wording of a failure to read type information. -/
def typeInfoMessage (path : String) : String := "error parsing " ++ path

/-- The wording of the failure. -/
def message : AttachError → String
  | load program cause =>
    "program '" ++ program ++ "' was rejected by the kernel: " ++ cause.message
  | link program cause =>
    "failed to attach program '" ++ program ++ "': " ++ cause.message
  | typeInfo program path _ =>
    "failed to read kernel BTF for '" ++ program ++ "': " ++ typeInfoMessage path
  | cgroup path cause => "failed to open cgroup " ++ Text.quoted path ++ ": " ++ cause.message
  | targetMismatch program target =>
    "program '" ++ program ++ "' cannot be attached to " ++ target

/-- What lies behind the failure. -/
def causes : AttachError → List String
  | load _ cause => cause.message :: cause.causes
  | link _ cause => cause.message :: cause.causes
  | typeInfo _ path cause => [typeInfoMessage path, cause.message]
  | cgroup _ cause => [cause.message]
  | targetMismatch _ _ => []

end AttachError

/-- Why a run could not be set up. -/
inductive SetupError where
  | config (cause : ConfigError)
  /-- The user is not the superuser. -/
  | privilege
  /-- The limit on locked memory could not be lifted. -/
  | lockedMemory (cause : IoError)
  /-- The object file could not be read. -/
  | unreadable (path : String) (cause : IoError)
  /-- The object file could not be loaded. -/
  | load (path : String) (cause : ObjectError)
  /-- The kernel could not create what the object file asks for. -/
  | resource (path : String) (cause : ObjectError)
  | attach (cause : AttachError)
  /-- The object file declares no such map. -/
  | missingMap (name : String)
  /-- A map could not be used or written. -/
  | map (name : String) (cause : MapError)
  /-- A stream of samples could not be opened. -/
  | stream (name : String) (cause : PerfError)
  /-- The observation log could not be created. -/
  | reporter (cause : IoError)
  /-- A signal could not be waited for. -/
  | signal (cause : IoError)
  deriving DecidableEq, Repr

namespace SetupError

/-- The wording of the failure. -/
def message : SetupError → String
  | config cause => cause.message
  | privilege => "you need root privileges to run this program"
  | lockedMemory cause => "failed to remove the locked memory limit: " ++ cause.message
  | unreadable path cause =>
    "failed to read eBPF object " ++ Text.quoted path ++ ": " ++ cause.message
  | load path cause =>
    "failed to load eBPF object " ++ Text.quoted path ++ ": " ++ cause.message
  | resource path cause =>
    "failed to allocate kernel resources for " ++ Text.quoted path ++ ": " ++ cause.message
  | attach cause => cause.message
  | missingMap name => name ++ " map not found in eBPF object"
  | map name cause => "failed to update " ++ name ++ ": " ++ cause.message
  | stream name cause => "failed to open perf reader on " ++ name ++ ": " ++ cause.message
  | reporter cause => "failed to initialize the reporter: " ++ cause.message
  | signal cause => "failed to register signal handler: " ++ cause.message

/-- What lies behind the failure. -/
def causes : SetupError → List String
  | config _ | privilege | missingMap _ => []
  | lockedMemory cause | unreadable _ cause | reporter cause | signal cause => [cause.message]
  | load _ cause | resource _ cause => cause.message :: cause.causes
  | attach cause => cause.causes
  | map _ cause => cause.message :: cause.causes
  | stream _ cause => cause.message :: cause.causes

/-- The message and the messages of what lies behind it. -/
def chain (e : SetupError) : List String := e.message :: e.causes

/-- Sorts a failure to load an object: where a map is at fault, resources were missing. -/
def ofObjectError (path : String) : ObjectError → SetupError
  | .map cause => .resource path (.map cause)
  | cause => .load path cause

end SetupError

end EgressControl
