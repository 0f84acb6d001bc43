import EgressControl.Text.Unprintable

/-! # Quoted text

Paths and names are quoted in messages: between double quotes, with the usual short escapes,
and with the code point in hexadecimal for characters that are not shown as themselves. -/

namespace EgressControl.Text

/-- A code point written out. -/
def codePoint (c : Char) : String :=
  "\\u\x7b" ++ String.ofList (Nat.toDigits 16 c.toNat) ++ "\x7d"

/-- One character of quoted text. -/
def quotedChar (c : Char) : String :=
  if c = '\x00' then "\\0"
  else if c = '\t' then "\\t"
  else if c = '\r' then "\\r"
  else if c = '\n' then "\\n"
  else if c = '\\' then "\\\\"
  else if c = '"' then "\\\""
  else if isUnprintable c then codePoint c
  else c.toString

/-- Text between double quotes, with everything escaped that would not be seen. -/
def quoted (s : String) : String := "\"" ++ String.join (s.toList.map quotedChar) ++ "\""

end EgressControl.Text
