import EgressControl.Error.Setup
import EgressControl.Json.Shape

/-! # Modes of enforcement

The filter program in the kernel only reports connections, or it also holds back those whose
destination is not on the allow list.  The mode is a number in a map that the program reads. -/

namespace EgressControl

/-- What the filter program does with a connection. -/
inductive Mode where
  /-- Report it. -/
  | monitor
  /-- Report it, and let it pass only if the destination is allowed. -/
  | trace
  deriving DecidableEq, Repr

namespace Mode

/-- The map that holds the mode. -/
def mapName : String := "mode_map"

/-- The key under which the mode is stored. -/
def mapKey : UInt32 := 0

/-- The name by which the user asks for a mode. -/
def name : Mode → String
  | monitor => "monitor"
  | trace => "trace"

/-- The number that the filter program understands. -/
def code : Mode → UInt32
  | monitor => 0
  | trace => 1

/-- The mode with a name. -/
def ofName? (s : String) : Option Mode :=
  if s = monitor.name then some monitor else if s = trace.name then some trace else none

/-- Reads what the user asked for; it has to be a name, letter by letter. -/
def parse (s : String) : Except ConfigError Mode :=
  if s = "" then .error .missingMode
  else
    match ofName? s with
    | some m => .ok m
    | none => .error (.invalidMode s)

/-- The mode as a JSON value. -/
def toJson (m : Mode) : Json.Value := .text m.name

/-- Reads a mode: its name, or an object with the name as its only key and `null` under it. -/
def ofJson? : Json.Value → Option Mode
  | .string (some s) => ofName? s
  | .object [(some s, .null)] => ofName? s
  | _ => none

end Mode

end EgressControl
