import EgressControl.Kernel.Files
import EgressControl.Text.Blank

/-! # The processors in use

The kernel shows the processors in use as a list of numbers and ranges, such as `0-3,8`. -/

namespace EgressControl.Processors

/-- Reads a number below 2³²; a plus sign may stand before it. -/
def parseNumber? (cs : List Char) : Option Nat :=
  let digits := if cs.head? = some '+' then cs.tail else cs
  let n := Nat.ofDigitChars 10 digits 0
  if digits.isEmpty || !digits.all Char.isDigit || n ≥ UInt32.size then none else some n

/-- Reads a number or a range.  A range that ends before it begins has no member. -/
def parseItem? (cs : List Char) : Option (List Nat) :=
  match Text.cutFirst '-' cs with
  | none => (parseNumber? cs).map ([·])
  | some (first, last) => do
    let first ← parseNumber? first
    let last ← parseNumber? last
    return (List.range (last + 1 - first)).map (first + ·)

/-- Reads a list of numbers and ranges; white space around the list is dropped. -/
def parse? (text : String) : Option (List Nat) :=
  ((Text.cut (· = ',') (Text.trimChars text.toList)).mapM parseItem?).map List.flatten

/-- The failure when the list is missing. -/
def missingError : PerfError :=
  .other ("online_cpus failed: Os \x7b code: 2, kind: NotFound, message: " ++
    "\"No such file or directory\" \x7d")

/-- The failure when the list is malformed. -/
def malformedError : PerfError :=
  .other ("online_cpus failed: Custom \x7b kind: Other, error: \"unexpected " ++
    KernelFacility.processors.path ++ " format\" \x7d")

/-- The processors in use. -/
def inUse (k : Kernel) : Except PerfError (List Nat) :=
  if k.lacksFacility .processors then .error missingError
  else
    match parse? k.processors with
    | some cpus => .ok cpus
    | none => .error malformedError

end EgressControl.Processors
