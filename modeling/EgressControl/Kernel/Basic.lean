import EgressControl.Error.Kernel
import EgressControl.Hook
import EgressControl.Text.Utf8

/-! # The kernel

A `Kernel` is what a run finds: its rights, its processors, the names that it knows, the samples
that wait in its perf buffers, and the calls that it refuses. -/

namespace EgressControl

/-- Calls that a kernel may refuse.  A call on a map is refused for one map. -/
inductive KernelCall where
  | createMap (name : String)
  | updateMap (name : String)
  | lookupMap (name : String)
  | nextKey (name : String)
  | loadProgram
  /-- Binding a program to its hook. -/
  | link
  /-- Handing a program to a probe. -/
  | setProgram
  /-- Switching a probe or a perf buffer on. -/
  | enable
  | openPerf
  | mapBuffer
  /-- Lifting the limit on locked memory. -/
  | liftMemoryLimit
  /-- Asking to be told about signals. -/
  | watchSignals
  deriving DecidableEq, Repr

/-- Things that a kernel may lack. -/
inductive KernelFacility where
  | processors
  | functionProbes
  | typeInfo
  | tracepoints
  | controlGroups
  deriving DecidableEq, Repr

/-- What waits in a perf buffer. -/
inductive BufferRecord where
  | sample (raw : List UInt8)
  /-- So many samples have been lost. -/
  | lost (count : Nat)
  /-- A record of another sort. -/
  | other
  deriving DecidableEq

/-- What a run finds. -/
structure Kernel where
  /-- Whether the run has the rights of the superuser. -/
  superuser : Bool := true
  /-- The list of the processors that are in use. -/
  processors : String := "0"
  /-- The number of processors that the machine may have. -/
  possibleProcessors : Nat := 4
  /-- The functions in the kernel's type information. -/
  functions : List String := []
  /-- The tracepoints in the kernel's type information. -/
  tracepoints : List String := []
  lacks : List KernelFacility := []
  refuses : List KernelCall := []
  /-- The calls that are refused while one program is attached to one target: code that the
  verifier turns down, a function that cannot be probed. -/
  refusesFor : String → AttachTarget → List KernelCall := fun _ _ => []
  /-- The keys that the map with a name does not take, however much room it has. -/
  rejectedKeys : String → List UInt32 := fun _ => []
  /-- The keys that the map with a name gives up at once, each time when it is written while it is
  full, if it is of the kind that keeps those entries that were used last. -/
  victims : String → List (List UInt32) := fun _ => []
  /-- Whether a perf array has room for the processors whose numbers are below its size; otherwise
  it has room for so many processors, whatever their numbers. -/
  indexesPerf : Bool := false
  /-- The processor in whose buffers samples wait. -/
  sampleProcessor : Nat := 0
  /-- The records that wait, by the name of their map. -/
  waiting : String → List BufferRecord := fun _ => []

namespace Kernel

/-- The number of bytes of a name that the kernel keeps. -/
def nameBytes : Nat := 15

/-- A name as the kernel keeps it. -/
def keptName (name : String) : String :=
  .ofList (Text.Utf8.decodeLossy (name.toUTF8.toList.take nameBytes))

/-- Whether a call is refused. -/
def refusesCall (k : Kernel) (call : KernelCall) : Bool := k.refuses.contains call

/-- Whether a call is refused while a program is attached to a target. -/
def refusesCallFor (k : Kernel) (program : String) (target : AttachTarget) (call : KernelCall) :
    Bool :=
  k.refusesCall call || (k.refusesFor program target).contains call

/-- Whether something is lacking. -/
def lacksFacility (k : Kernel) (f : KernelFacility) : Bool := k.lacks.contains f

end Kernel

end EgressControl
