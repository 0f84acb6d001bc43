/-! # The tokens of JSON text

`Token.scan` takes a text apart into tokens, in one pass over its characters: `Scanner` is what
the scanner knows between two characters, `Scanner.step` takes in one more.

A string may name half of a surrogate pair by an escape.  Such a string is well-formed, so that
it may stand where nobody looks, but it has no content. -/

namespace EgressControl.Json

/-- A token; a number is kept as it is written. -/
inductive Token where
  | openBrace
  | closeBrace
  | openBracket
  | closeBracket
  | colon
  | comma
  | null
  | bool (b : Bool)
  | number (literal : String)
  | string (content : Option String)
  deriving DecidableEq, Repr

/-- The part of a number that was read last. -/
inductive NumberPart where
  | sign
  | zero
  | whole
  | point
  | fraction
  | exponent
  | exponentSign
  | exponentDigits
  deriving DecidableEq, Repr

namespace NumberPart

/-- The part to which a character belongs that goes on with a number. -/
def next (p : NumberPart) (c : Char) : Option NumberPart :=
  match p with
  | sign => if c = '0' then some zero else if c.isDigit then some whole else none
  | zero =>
    if c = '.' then some point else if c = 'e' || c = 'E' then some exponent else none
  | whole =>
    if c.isDigit then some whole
    else if c = '.' then some point
    else if c = 'e' || c = 'E' then some exponent
    else none
  | point => if c.isDigit then some fraction else none
  | fraction =>
    if c.isDigit then some fraction else if c = 'e' || c = 'E' then some exponent else none
  | exponent =>
    if c = '+' || c = '-' then some exponentSign
    else if c.isDigit then some exponentDigits
    else none
  | exponentSign => if c.isDigit then some exponentDigits else none
  | exponentDigits => if c.isDigit then some exponentDigits else none

/-- Whether a number may end after this part. -/
def complete : NumberPart → Bool
  | zero | whole | fraction | exponentDigits => true
  | _ => false

end NumberPart

/-- What has been read of a string: its characters, last one first, the first half of a
surrogate pair that waits for the second, and whether half a pair was left alone. -/
structure Content where
  chars : List Char := []
  high : Option Nat := none
  broken : Bool := false

namespace Content

/-- Takes in a character. -/
def push (s : Content) (c : Char) : Content :=
  ⟨c :: s.chars, none, s.broken || s.high.isSome⟩

/-- Takes in the number of a `\u` escape. -/
def pushUnit (s : Content) (u : Nat) : Content :=
  -- A first half waits for its second one; a first half before it stays alone.
  if 0xd800 ≤ u ∧ u ≤ 0xdbff then ⟨s.chars, some u, s.broken || s.high.isSome⟩
  else if 0xdc00 ≤ u ∧ u ≤ 0xdfff then
    match s.high with
    | some h =>
      ⟨Char.ofNat (0x10000 + (h - 0xd800) * 0x400 + (u - 0xdc00)) :: s.chars, none, s.broken⟩
    | none => ⟨s.chars, none, true⟩
  else s.push (Char.ofNat u)

/-- The content of the string that ends here, if it has one. -/
def finish (s : Content) : Option String :=
  if s.broken || s.high.isSome then none else some (.ofList s.chars.reverse)

end Content

/-- What the scanner knows between two characters. -/
inductive Scanner where
  /-- No token has begun. -/
  | between
  /-- These characters have to follow to make the token. -/
  | word (rest : List Char) (token : Token)
  /-- A number; its characters, last one first. -/
  | number (part : NumberPart) (chars : List Char)
  | string (content : Content)
  /-- A backslash has been read in a string. -/
  | escape (content : Content)
  /-- So many digits of a `\u` escape are missing. -/
  | unit (content : Content) (missing value : Nat)

namespace Scanner

/-- White space between tokens. -/
def isSpace (c : Char) : Bool := c = ' ' || c = '\n' || c = '\t' || c = '\r'

/-- The value of a hexadecimal digit. -/
def hexDigit? (c : Char) : Option Nat :=
  if c.isDigit then some (c.toNat - '0'.toNat)
  else if 'a' ≤ c ∧ c ≤ 'f' then some (c.toNat - 'a'.toNat + 10)
  else if 'A' ≤ c ∧ c ≤ 'F' then some (c.toNat - 'A'.toNat + 10)
  else none

/-- What a short escape stands for. -/
def unescape? (c : Char) : Option Char :=
  if c = '"' then some '"'
  else if c = '\\' then some '\\'
  else if c = '/' then some '/'
  else if c = 'b' then some '\x08'
  else if c = 'f' then some '\x0c'
  else if c = 'n' then some '\n'
  else if c = 'r' then some '\r'
  else if c = 't' then some '\t'
  else none

/-- Takes in a character where no token has begun. -/
def stepBetween (c : Char) : Option (List Token × Scanner) :=
  if isSpace c then some ([], between)
  else if c = '\x7b' then some ([.openBrace], between)
  else if c = '\x7d' then some ([.closeBrace], between)
  else if c = '[' then some ([.openBracket], between)
  else if c = ']' then some ([.closeBracket], between)
  else if c = ':' then some ([.colon], between)
  else if c = ',' then some ([.comma], between)
  else if c = '"' then some ([], string {})
  else if c = '-' then some ([], number .sign [c])
  else if c = '0' then some ([], number .zero [c])
  else if c.isDigit then some ([], number .whole [c])
  else if c = 't' then some ([], word ['r', 'u', 'e'] (.bool true))
  else if c = 'f' then some ([], word ['a', 'l', 's', 'e'] (.bool false))
  else if c = 'n' then some ([], word ['u', 'l', 'l'] .null)
  else none

/-- Takes in one character: the tokens that it ends, and what is known after it. -/
def step : Scanner → Char → Option (List Token × Scanner)
  | between, c => stepBetween c
  | word [] _, _ => none
  | word [d] token, c => if c = d then some ([token], between) else none
  | word (d :: rest) token, c => if c = d then some ([], word rest token) else none
  | number part chars, c =>
    match part.next c with
    | some part => some ([], number part (c :: chars))
    | none =>
      if part.complete then
        (stepBetween c).map fun (tokens, s) =>
          (.number (.ofList chars.reverse) :: tokens, s)
      else none
  | string content, c =>
    if c = '"' then some ([.string content.finish], between)
    else if c = '\\' then some ([], escape content)
    else if c.toNat < 0x20 then none
    else some ([], string (content.push c))
  | escape content, c =>
    if c = 'u' then some ([], unit content 4 0)
    else (unescape? c).map fun d => ([], string (content.push d))
  | unit content missing value, c =>
    (hexDigit? c).map fun d =>
      let value := value * 16 + d
      if missing ≤ 1 then ([], string (content.pushUnit value))
      else ([], unit content (missing - 1) value)

/-- The last token, if the text may end here. -/
def finish : Scanner → Option (List Token)
  | between => some []
  | number part chars =>
    if part.complete then some [.number (.ofList chars.reverse)] else none
  | _ => none

/-- The tokens of the rest of a text. -/
def run (s : Scanner) : List Char → Option (List Token)
  | [] => s.finish
  | c :: cs =>
    match s.step c with
    | none => none
    | some (tokens, s) => (run s cs).map (tokens ++ ·)

end Scanner

/-- The tokens of a text. -/
def Token.scan (text : String) : Option (List Token) := Scanner.between.run text.toList

end EgressControl.Json
