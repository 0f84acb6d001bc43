import EgressControl.Error.System

/-! # Failures around the kernel

Maps, programs, perf buffers and object files fail in ways of their own.  Every failure has a
`message` and its `causes`, the messages of what lies behind it, nearest first.  A failure that
only hands on another one shows the other one's message and causes. -/

namespace EgressControl

/-- The name of a call or file between backquotes. -/
def backquoted (s : String) : String := "`" ++ s ++ "`"

/-- Why an operation on a map failed. -/
inductive MapError where
  | keyNotFound
  | elementNotFound
  /-- An array has no such index. -/
  | outOfBounds (index maxEntries : Nat)
  /-- The map could not be created. -/
  | create (map : String) (code : Int) (cause : IoError)
  /-- The map is of a kind that cannot be used this way. -/
  | invalidType (kind : Nat)
  /-- The map's keys have another size. -/
  | invalidKeySize (size expected : Nat)
  /-- The map's values have another size. -/
  | invalidValueSize (size expected : Nat)
  /-- A system call on the map failed. -/
  | call (name : String) (cause : IoError)
  deriving DecidableEq, Repr

namespace MapError

/-- The wording of the failure. -/
def message : MapError → String
  | keyNotFound => "key not found"
  | elementNotFound => "element not found"
  | outOfBounds index maxEntries =>
    "the index is " ++ index.repr ++ " but `max_entries` is " ++ maxEntries.repr
  | create map code _ =>
    "failed to create map " ++ backquoted map ++ " with code " ++ code.repr
  | invalidType kind => "invalid map type " ++ kind.repr
  | invalidKeySize size expected =>
    "invalid key size " ++ size.repr ++ ", expected " ++ expected.repr
  | invalidValueSize size expected =>
    "invalid value size " ++ size.repr ++ ", expected " ++ expected.repr
  | call name _ => backquoted name ++ " failed"

/-- What lies behind the failure. -/
def causes : MapError → List String
  | create _ _ cause => [cause.message]
  | call _ cause => [cause.message]
  | _ => []

end MapError

/-- Why an operation on a program failed. -/
inductive ProgramError where
  | notLoaded
  | alreadyLoaded
  | alreadyAttached
  | unknownInterface (name : String)
  /-- The kernel's type information does not know the name. -/
  | unknownType (name : String)
  /-- The kernel's verifier turned the program down. -/
  | rejected (verifierLog : String) (cause : IoError)
  /-- A system call failed. -/
  | call (name : String) (cause : IoError)
  /-- A file of the system could not be read. -/
  | file (path : String) (cause : IoError)
  | map (cause : MapError)
  | io (cause : IoError)
  deriving DecidableEq, Repr

namespace ProgramError

/-- The wording of the failure. -/
def message : ProgramError → String
  | notLoaded => "the program is not loaded"
  | alreadyLoaded => "the program is already loaded"
  | alreadyAttached => "the program was already attached"
  | unknownInterface name => "unknown network interface " ++ name
  | unknownType name => "Unknown BTF type " ++ backquoted name
  | rejected verifierLog _ =>
    "the BPF_PROG_LOAD syscall failed. Verifier output: " ++ verifierLog
  | call name _ => backquoted name ++ " failed"
  | file path _ => backquoted path
  | map cause => cause.message
  | io cause => cause.message

/-- What lies behind the failure. -/
def causes : ProgramError → List String
  | rejected _ cause => [cause.message]
  | call _ cause => [cause.message]
  | file _ cause => [cause.message]
  | map cause => cause.causes
  | _ => []

end ProgramError

/-- Why a perf buffer could not be opened or read. -/
inductive PerfError where
  | noBuffers
  | pageCount (count : Nat)
  | open (cause : IoError)
  | mmap (cause : IoError)
  | enable (cause : IoError)
  | map (cause : MapError)
  | io (cause : IoError)
  /-- Something around the buffers failed, in words of its own. -/
  | other (text : String)
  deriving DecidableEq, Repr

namespace PerfError

/-- The wording of the failure. -/
def message : PerfError → String
  | noBuffers => "read_events() was called with no output buffers"
  | pageCount count =>
    "invalid page count " ++ count.repr ++ ", the value must be a power of two"
  | «open» cause => "perf_event_open failed: " ++ cause.message
  | mmap cause => "mmap failed: " ++ cause.message
  | enable cause => "PERF_EVENT_IOC_ENABLE failed: " ++ cause.message
  | map cause => cause.message
  | io cause => cause.message
  | other text => text

/-- What lies behind the failure. -/
def causes : PerfError → List String
  | «open» cause => [cause.message]
  | mmap cause => [cause.message]
  | enable cause => [cause.message]
  | map cause => cause.causes
  | _ => []

end PerfError

/-- Why bytes are no object file. -/
inductive FormatError where
  /-- The container format is broken. -/
  | container
  /-- A section's name is that of no kind of program. -/
  | invalidSection (name : String)
  /-- What stands where a map is defined does not define one. -/
  | invalidMap (name : String)
  /-- There is a section for maps in terms of the type information, which is not there. -/
  | noTypeInfo
  /-- The type information cannot be read. -/
  | invalidTypeInfo
  /-- What stands as the licence is no text. -/
  | invalidLicense (bytes : List UInt8)
  /-- The licence has no end. -/
  | unendedLicense (bytes : List UInt8)
  /-- What stands as the version of the kernel is not one. -/
  | invalidVersion (bytes : List UInt8)
  deriving DecidableEq, Repr

namespace FormatError

/-- Bytes as they stand in a message. -/
def byteList (bytes : List UInt8) : String :=
  "[" ++ ", ".intercalate (bytes.map fun b => b.toNat.repr) ++ "]"

/-- The wording of the failure. -/
def message : FormatError → String
  | container => "error parsing ELF data"
  | invalidSection name => "invalid program section " ++ backquoted name
  | invalidMap name => "error parsing map " ++ backquoted name
  | noTypeInfo => "no BTF parsed for object"
  | invalidTypeInfo => "BTF error"
  | invalidLicense bytes => "invalid license " ++ backquoted (byteList bytes)
  | unendedLicense bytes =>
    "invalid license " ++ backquoted (byteList bytes) ++ ": missing NULL terminator"
  | invalidVersion bytes => "invalid kernel version " ++ backquoted (byteList bytes)

/-- What lies behind the failure. -/
def causes : FormatError → List String
  | invalidTypeInfo => ["error parsing BTF header"]
  | _ => []

end FormatError

/-- Why an object file could not be loaded. -/
inductive ObjectError where
  | format (cause : FormatError)
  | map (cause : MapError)
  | program (cause : ProgramError)
  deriving DecidableEq, Repr

namespace ObjectError

/-- The wording of the failure. -/
def message : ObjectError → String
  | format cause => "error parsing BPF object: " ++ cause.message
  | map cause => "map error: " ++ cause.message
  | program cause => "program error: " ++ cause.message

/-- What lies behind the failure. -/
def causes : ObjectError → List String
  | format cause => cause.message :: cause.causes
  | map cause => cause.message :: cause.causes
  | program cause => cause.message :: cause.causes

end ObjectError

/-- Why a stream of samples gave no sample. -/
inductive ReadError where
  /-- The reader is closed, the normal end of a stream. -/
  | closed
  /-- The perf buffer of one processor could not be read. -/
  | buffer (cpu : Nat) (cause : PerfError)
  deriving DecidableEq, Repr

namespace ReadError

/-- The wording of the failure. -/
def message : ReadError → String
  | closed => "perf reader closed"
  | buffer cpu cause =>
    "reading perf buffer on CPU " ++ cpu.repr ++ ": " ++ cause.message

/-- What lies behind the failure. -/
def causes : ReadError → List String
  | closed => []
  | buffer _ cause => cause.message :: cause.causes

end ReadError

end EgressControl
