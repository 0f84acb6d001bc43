import EgressControl.Json.Token

/-! # JSON values

`Value.parse?` reads a text as one value, by a machine that takes in one token after the other
and keeps what is not yet closed on a stack.  `Value.pieces` writes a value without white space,
piece by piece as it goes out; `Value.compact` is the pieces put together and `Value.pretty` the
same value over many lines.

Numbers are kept as they are written, members of an object in their order, doubled ones
included.  A string without content (`none`) names half of a surrogate pair. -/

namespace EgressControl.Json

/-- A JSON value. -/
inductive Value where
  | null
  | bool (b : Bool)
  | number (literal : String)
  | string (content : Option String)
  | array (items : List Value)
  | object (members : List (Option String × Value))
  deriving Inhabited

/-- A bracket that is open: what stands before the value that is read now. -/
inductive Frame where
  /-- The items so far, last one first. -/
  | array (items : List Value)
  /-- The members so far, last one first, and the key of the value to come. -/
  | object (members : List (Option String × Value)) (key : Option String)

/-- What may come next. -/
inductive Reader where
  /-- A value has to follow. -/
  | value (stack : List Frame)
  /-- The first item of an array, or its end. -/
  | firstItem (stack : List Frame)
  /-- The first key of an object, or its end. -/
  | firstKey (stack : List Frame)
  /-- Another key of an object. -/
  | key (members : List (Option String × Value)) (stack : List Frame)
  /-- The colon behind a key. -/
  | colon (members : List (Option String × Value)) (key : Option String) (stack : List Frame)
  /-- A value is complete. -/
  | done (v : Value) (stack : List Frame)

namespace Reader

/-- Takes in a token where a value has to follow. -/
def stepValue (stack : List Frame) : Token → Option Reader
  | .null => some (done .null stack)
  | .bool b => some (done (.bool b) stack)
  | .number literal => some (done (.number literal) stack)
  | .string content => some (done (.string content) stack)
  | .openBracket => some (firstItem stack)
  | .openBrace => some (firstKey stack)
  | _ => none

/-- Takes in one token. -/
def step : Reader → Token → Option Reader
  | value stack, t => stepValue stack t
  | firstItem stack, .closeBracket => some (done (.array []) stack)
  | firstItem stack, t => stepValue (.array [] :: stack) t
  | firstKey stack, .closeBrace => some (done (.object []) stack)
  | firstKey stack, .string k => some (colon [] k stack)
  | key members stack, .string k => some (colon members k stack)
  | colon members k stack, .colon => some (value (.object members k :: stack))
  | done v (.array items :: stack), .comma => some (value (.array (v :: items) :: stack))
  | done v (.array items :: stack), .closeBracket =>
    some (done (.array (v :: items).reverse) stack)
  | done v (.object members k :: stack), .comma => some (key ((k, v) :: members) stack)
  | done v (.object members k :: stack), .closeBrace =>
    some (done (.object ((k, v) :: members).reverse) stack)
  | _, _ => none

/-- Takes in tokens up to the end; one value has to be complete then, and nothing open. -/
def run (r : Reader) : List Token → Option Value
  | [] =>
    match r with
    | done v [] => some v
    | _ => none
  | t :: ts =>
    match r.step t with
    | none => none
    | some r => run r ts

end Reader

namespace Value

/-- Reads a text as one value. -/
def parse? (text : String) : Option Value :=
  match Token.scan text with
  | none => none
  | some tokens => (Reader.value []).run tokens

/-- The escape for a character that cannot stand in a string as itself. -/
def escape? (c : Char) : Option String :=
  if c = '"' then some "\\\""
  else if c = '\\' then some "\\\\"
  else if c = '\x08' then some "\\b"
  else if c = '\t' then some "\\t"
  else if c = '\n' then some "\\n"
  else if c = '\x0c' then some "\\f"
  else if c = '\r' then some "\\r"
  else if c.toNat < 0x20 then
    some ("\\u00" ++ String.ofList [Nat.digitChar (c.toNat / 16), Nat.digitChar (c.toNat % 16)])
  else none

/-- A run of characters as one piece, or no piece if there are none; last character first. -/
def runPiece (chars : List Char) : List String :=
  if chars.isEmpty then [] else [.ofList chars.reverse]

/-- The content of a string in pieces: every escape is one, and so is every run of characters
between them.  `chars` is the run so far, last one first. -/
def contentPieces (chars : List Char) : List Char → List String
  | [] => runPiece chars
  | c :: cs =>
    match escape? c with
    | some e => runPiece chars ++ e :: contentPieces [] cs
    | none => contentPieces (c :: chars) cs

/-- A string in pieces. -/
def stringPieces : Option String → List String
  | some s => "\"" :: contentPieces [] s.toList ++ ["\""]
  | none => ["\"", "\\ud800", "\""]

mutual

/-- A value without white space, in pieces. -/
def pieces : Value → List String
  | null => ["null"]
  | bool b => [if b then "true" else "false"]
  | number literal => [literal]
  | string content => stringPieces content
  | array items => "[" :: itemPieces items ++ ["]"]
  | object members => "\x7b" :: memberPieces members ++ ["\x7d"]

/-- Items with commas between them, in pieces. -/
def itemPieces : List Value → List String
  | [] => []
  | v :: vs => pieces v ++ moreItemPieces vs

/-- Items with a comma before each, in pieces. -/
def moreItemPieces : List Value → List String
  | [] => []
  | v :: vs => "," :: pieces v ++ moreItemPieces vs

/-- Members with commas between them, in pieces. -/
def memberPieces : List (Option String × Value) → List String
  | [] => []
  | (k, v) :: ms => stringPieces k ++ ":" :: pieces v ++ moreMemberPieces ms

/-- Members with a comma before each, in pieces. -/
def moreMemberPieces : List (Option String × Value) → List String
  | [] => []
  | (k, v) :: ms => "," :: stringPieces k ++ ":" :: pieces v ++ moreMemberPieces ms

end

/-- A value without white space. -/
def compact (v : Value) : String := String.join v.pieces

/-- The spaces at the beginning of a line. -/
def indentation (depth : Nat) : String := .ofList (List.replicate (2 * depth) ' ')

mutual

/-- A value over many lines, two spaces deeper for each bracket. -/
def prettyAt (depth : Nat) : Value → String
  | array [] => "[]"
  | array (v :: vs) =>
    "[\n" ++ indentation (depth + 1) ++ prettyAt (depth + 1) v ++ prettyItems (depth + 1) vs ++
      "\n" ++ indentation depth ++ "]"
  | object [] => "\x7b\x7d"
  | object ((k, v) :: ms) =>
    "\x7b\n" ++ indentation (depth + 1) ++ String.join (stringPieces k) ++ ": " ++
      prettyAt (depth + 1) v ++ prettyMembers (depth + 1) ms ++
      "\n" ++ indentation depth ++ "\x7d"
  | v => String.join v.pieces

/-- Further items, each on a line of its own. -/
def prettyItems (depth : Nat) : List Value → String
  | [] => ""
  | v :: vs => ",\n" ++ indentation depth ++ prettyAt depth v ++ prettyItems depth vs

/-- Further members, each on a line of its own. -/
def prettyMembers (depth : Nat) : List (Option String × Value) → String
  | [] => ""
  | (k, v) :: ms =>
    ",\n" ++ indentation depth ++ String.join (stringPieces k) ++ ": " ++ prettyAt depth v ++
      prettyMembers depth ms

end

/-- A value over many lines, two spaces deeper for each bracket. -/
def pretty (v : Value) : String := v.prettyAt 0

end Value

end EgressControl.Json
