import EgressControl.Kernel.Program

/-! # Sections of an object file

What stands in a section is told by its name.  The beginnings in `SectionUse.byBeginning` keep a
section for a use of its own; every other name has to be that of a kind of program. -/

namespace EgressControl

/-- What a section of an object file is for. -/
inductive SectionUse where
  /-- Programs of a kind. -/
  | programs (kind : ProgramKind)
  /-- Functions that programs call. -/
  | functions
  /-- Variables of programs. -/
  | data
  /-- Remarks on the file or on what stands in it. -/
  | remarks
  /-- Definitions of maps. -/
  | maps
  /-- Definitions of maps in terms of the type information. -/
  | typedMaps
  /-- The types of everything in the file. -/
  | typeInfo
  deriving DecidableEq, Repr

namespace SectionUse

/-- How the names of sections begin that are kept for a use. -/
def byBeginning : List (String × SectionUse) :=
  [("license", remarks), ("version", remarks), ("maps", maps), (".maps", typedMaps),
   (".text", functions), (".bss", data), (".data", data), (".rodata", data)]

/-- The use of a section with a name. -/
def ofName? (name : String) : Option SectionUse :=
  match byBeginning.find? fun (beginning, _) => beginning.toList.isPrefixOf name.toList with
  | some (_, use) => some use
  | none =>
    if name = ".BTF" then some typeInfo
    else if name = ".BTF.ext" then some remarks
    else (ProgramKind.ofSection? name).map programs

end SectionUse

end EgressControl
