import EgressControl.Json.Value
import EgressControl.Table

/-! # Typed content of JSON values

Functions that read a value as text, a number, a list and so on, and give `none` where it is
something else.  `fields?` takes a value apart into the fields of a structure: an object, where
the order of the members is free and members with other keys do not count, or an array of
exactly the fields in order. -/

namespace EgressControl.Json.Value

/-- The content of a string. -/
def asText? : Value → Option String
  | string content => content
  | _ => none

/-- A truth value. -/
def asBool? : Value → Option Bool
  | bool b => some b
  | _ => none

/-- A whole number below a limit, written without fraction and exponent. -/
def asNat? (limit : Nat) : Value → Option Nat
  | number literal =>
    let digits := literal.toList
    let n := Nat.ofDigitChars 10 digits 0
    if digits.all Char.isDigit && n < limit then some n else none
  | _ => none

/-- A value that may be `null`. -/
def asOption (read : Value → Option α) : Value → Option (Option α)
  | null => some none
  | v => (read v).map some

/-- An array of values of one kind. -/
def asList (read : Value → Option α) : Value → Option (List α)
  | array items => items.mapM read
  | _ => none

/-- A member as an entry of a table. -/
def asEntry (read : Value → Option α) (m : Option String × Value) : Option (String × α) := do
  let key ← m.1
  let content ← read m.2
  return (key, content)

/-- An object as a table; of members with the same key the last one counts. -/
def asTable (read : Value → Option α) : Value → Option (Table String α)
  | object members =>
    (members.mapM (asEntry read)).map Table.ofList
  | _ => none

/-- The value of the only member with a key.  The inner `none` says that there is no such
member; there is no result if there are several. -/
def only? (key : String) (members : List (Option String × Value)) : Option (Option Value) :=
  match members.filter fun m => m.1 = some key with
  | [] => some none
  | [(_, v)] => some (some v)
  | _ => none

/-- The fields of a structure, `none` for one that is missing. -/
def fields? (names : List String) : Value → Option (List (Option Value))
  | object members =>
    if members.all (·.1.isSome) then names.mapM (only? · members) else none
  | array items => if items.length = names.length then some (items.map some) else none
  | _ => none

/-- A field that has to be there. -/
def required (read : Value → Option α) (field : Option Value) : Option α := field.bind read

/-- A field that may be missing or `null`. -/
def optional (read : Value → Option α) : Option Value → Option (Option α)
  | none => some none
  | some v => v.asOption read

/-- Text as a value. -/
def text (s : String) : Value := string (some s)

/-- A whole number as a value. -/
def nat (n : Nat) : Value := number n.repr

/-- Text or `null`. -/
def optionalText : Option String → Value
  | none => null
  | some s => text s

/-- A list of texts as a value. -/
def texts (ss : List String) : Value := array (ss.map text)

/-- A table of texts as an object, in the order of its keys. -/
def textTable (t : Table String String) : Value :=
  object (t.entries.map fun (k, v) => (some k, text v))

/-- A structure as an object with the given members. -/
def record (members : List (String × Value)) : Value :=
  object (members.map fun (k, v) => (some k, v))

end EgressControl.Json.Value
