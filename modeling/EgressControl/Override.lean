import EgressControl.Error.Setup
import EgressControl.Table
import EgressControl.Text.Blank

/-! # Overriding attach targets

The user may bind a program to another target than the one with its own name, by an item
`program=target`.  `Override.parseAll` reads a list of items as a table from programs to
targets. -/

namespace EgressControl.Override

/-- Reads one item: program and target stand before and after the first `=`, with white space
around them dropped, and neither may be empty. -/
def parse? (item : String) : Option (String × String) :=
  match Text.cutFirst '=' item.toList with
  | none => none
  | some (before, after) =>
    let program := Text.trimChars before
    let target := Text.trimChars after
    if program.isEmpty || target.isEmpty then none
    else some (.ofList program, .ofList target)

/-- Reads further items onto a table. -/
def parseOnto (table : Table String String) :
    List String → Except ConfigError (Table String String)
  | [] => .ok table
  | item :: items =>
    match parse? item with
    | none => .error (.invalidOverride item)
    | some (program, target) => parseOnto (table.insert program target) items

/-- Reads a list of items.  The last item of a program counts; the first item that cannot be
read is reported. -/
def parseAll (items : List String) : Except ConfigError (Table String String) :=
  parseOnto .empty items

/-- An item as the user writes it. -/
def item (program target : String) : String := program ++ "=" ++ target

end EgressControl.Override
