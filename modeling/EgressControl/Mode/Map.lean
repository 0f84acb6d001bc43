import EgressControl.Kernel.Map
import EgressControl.Log
import EgressControl.Mode.Basic

/-! # Setting the mode

The mode is written once, before connections are looked at.  The object file may declare the map
that holds it as an array or as a hash map. -/

namespace EgressControl.Mode

/-- Writes the mode into its map. -/
def write (mode : Mode) (m : KernelMap) : Except MapError KernelMap :=
  if m.spec.kind = .array then
    match m.checkSizes with
    | .error e => .error e
    | .ok () => m.writeArray mapKey mode.code
  else
    match m.checkWords KernelMap.hashKinds with
    | .error e => .error e
    | .ok () => m.insert mapKey mode.code

/-- The line on a mode that has been written. -/
def setLine (mode : Mode) : Log.Line :=
  .info ("mode set to " ++ mode.name ++ " (" ++ mode.code.toNat.repr ++ ")")

end EgressControl.Mode
