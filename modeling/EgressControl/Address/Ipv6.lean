import EgressControl.Address.Ipv4

/-! # IPv6 literals

`isLiteral` recognises the text of an IPv6 address: eight groups of one to four hexadecimal
digits with colons between them, where one `::` may stand for at least one group of zeros and
the last two groups may be written as a dotted quad.  There is no zone and no bracket. -/

namespace EgressControl.Ipv6

/-- Whether a character is a hexadecimal digit. -/
def isHexDigit (c : Char) : Bool :=
  c.isDigit || ('a' ≤ c && c ≤ 'f') || ('A' ≤ c && c ≤ 'F')

/-- Reads a group of one to four hexadecimal digits; a longer run of digits is no group. -/
def readGroup (cs : List Char) : Option (List Char) :=
  let digits := cs.takeWhile isHexDigit
  if digits.isEmpty || digits.length > 4 then none else some (cs.drop digits.length)

/-- Reads the colon that stands before every group but the first. -/
def readSeparator (first : Bool) : List Char → Option (List Char)
  | cs => if first then some cs else
    match cs with
    | ':' :: cs => some cs
    | _ => none

/-- Reads groups, at most the given number.  The result is how many were read, whether the last
two of them were a dotted quad, and the rest of the text.  A dotted quad ends the groups. -/
def readGroups : Nat → Bool → List Char → Nat × Bool × List Char
  | 0, _, cs => (0, false, cs)
  | limit + 1, first, cs =>
    match readSeparator first cs with
    | none => (0, false, cs)
    | some body =>
      match if limit = 0 then none else Ipv4.read body with
      | some (_, rest) => (2, true, rest)
      | none =>
        match readGroup body with
        | none => (0, false, cs)
        | some rest =>
          let (n, quad, rest) := readGroups limit false rest
          (n + 1, quad, rest)

/-- Whether a text is the text of an IPv6 address. -/
def isLiteral (cs : List Char) : Bool :=
  let (count, quad, rest) := readGroups 8 true cs
  if count = 8 then rest.isEmpty
  -- A dotted quad stands at the end only, so that no colons can follow it.
  else if quad then false
  else
    match rest with
    -- The two colons stand for one group at least.
    | ':' :: ':' :: tail => (readGroups (7 - count) true tail).2.2.isEmpty
    | _ => false

end EgressControl.Ipv6
