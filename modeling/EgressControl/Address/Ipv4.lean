import EgressControl.Record.LittleEndian

/-! # IPv4 addresses

An address is its four octets.  `text` writes it as a dotted quad and `parse?` reads exactly
that; addresses are ordered as numbers, first octet first.  `key` is the number under which the
kernel's maps know an address: the octets in network order, taken as a little-endian word, so
that the first octet is the least significant. -/

namespace EgressControl

/-- An IPv4 address. -/
structure Ipv4 where
  a : UInt8
  b : UInt8
  c : UInt8
  d : UInt8
  deriving DecidableEq, Inhabited

namespace Ipv4

/-- The octets, in the order in which they are written and sent. -/
def octets (x : Ipv4) : List UInt8 := [x.a, x.b, x.c, x.d]

/-- The address as a number, first octet most significant. -/
def toNat (x : Ipv4) : Nat :=
  ((x.a.toNat * 256 + x.b.toNat) * 256 + x.c.toNat) * 256 + x.d.toNat

/-- Two addresses with the same number `toNat` are the same. -/
private theorem toNat_inj {x y : Ipv4} : x.toNat = y.toNat ↔ x = y := by
  constructor
  · intro h
    obtain ⟨a, b, c, d⟩ := x
    obtain ⟨a', b', c', d'⟩ := y
    simp only [toNat] at h
    have := a.toNat_lt; have := b.toNat_lt; have := c.toNat_lt; have := d.toNat_lt
    have := a'.toNat_lt; have := b'.toNat_lt; have := c'.toNat_lt; have := d'.toNat_lt
    simp only [mk.injEq, ← UInt8.toNat_inj]
    omega
  · rintro rfl
    rfl

/-- Addresses are ordered as numbers. -/
instance : Ord Ipv4 := ⟨compareOn toNat⟩

private theorem compare_def (x y : Ipv4) : compare x y = compare x.toNat y.toNat := rfl

instance : Std.TransOrd Ipv4 := inferInstanceAs (Std.TransCmp (compareOn toNat))

instance : Std.LawfulEqOrd Ipv4 where
  compare_self {x} := by rw [compare_def]; exact Std.ReflOrd.compare_self
  eq_of_compare {x y} h := by
    rw [compare_def] at h
    exact toNat_inj.mp (Std.LawfulEqOrd.eq_of_compare h)

/-- The kernel's key of an address. -/
def key (x : Ipv4) : UInt32 := .ofNat (LittleEndian.decode x.octets)

/-- The address with a key. -/
def ofKey (k : UInt32) : Ipv4 :=
  let n := k.toNat
  ⟨.ofNat n, .ofNat (n / 0x100), .ofNat (n / 0x10000), .ofNat (n / 0x1000000)⟩

/-- The first octet is the lowest byte of the key. -/
theorem toNat_key (x : Ipv4) :
    x.key.toNat =
      x.a.toNat + 0x100 * x.b.toNat + 0x10000 * x.c.toNat + 0x1000000 * x.d.toNat := by
  have := x.a.toNat_lt; have := x.b.toNat_lt; have := x.c.toNat_lt; have := x.d.toNat_lt
  -- The number has no more than 32 bits, so that nothing is cut off.
  simp only [key, octets, LittleEndian.decode, UInt32.toNat_ofNat']
  omega

/-- `ofKey` takes the address back out of its key. -/
theorem ofKey_key (x : Ipv4) : ofKey x.key = x := by
  have hn := toNat_key x
  obtain ⟨a, b, c, d⟩ := x
  have ha := a.toNat_lt
  have hb := b.toNat_lt
  have hc := c.toNat_lt
  have hd := d.toNat_lt
  simp only [ofKey, hn, mk.injEq, ← UInt8.toNat_inj, UInt8.toNat_ofNat']
  omega

/-- Every word is the `key` of the address that `ofKey` makes of it. -/
theorem key_ofKey (k : UInt32) : (ofKey k).key = k := by
  have hk := k.toNat_lt
  apply UInt32.toNat_inj.mp
  simp only [key, ofKey, octets, LittleEndian.decode, UInt32.toNat_ofNat', UInt8.toNat_ofNat']
  omega

/-- Two addresses with the same `key` are the same. -/
theorem key_inj {x y : Ipv4} : x.key = y.key ↔ x = y := by
  constructor
  · intro h
    rw [← ofKey_key x, h, ofKey_key]
  · rintro rfl
    rfl

/-- The dotted quad of an address. -/
def text (x : Ipv4) : String :=
  x.a.toNat.repr ++ "." ++ x.b.toNat.repr ++ "." ++ x.c.toNat.repr ++ "." ++ x.d.toNat.repr

/-- Reads an octet: one to three digits, no zero in front of another digit, at most 255. -/
def readOctet (cs : List Char) : Option (UInt8 × List Char) :=
  let digits := cs.takeWhile Char.isDigit
  let value := Nat.ofDigitChars 10 digits 0
  if digits.isEmpty || digits.length > 3 then none
  else if digits.head? == some '0' && digits.length > 1 then none
  else if value > 255 then none
  else some (UInt8.ofNat value, cs.drop digits.length)

/-- Reads the dot between two octets and the octet behind it. -/
def readDotOctet : List Char → Option (UInt8 × List Char)
  | '.' :: cs => readOctet cs
  | _ => none

/-- Reads a dotted quad; the rest of the text is handed back. -/
def read (cs : List Char) : Option (Ipv4 × List Char) := do
  let (a, cs) ← readOctet cs
  let (b, cs) ← readDotOctet cs
  let (c, cs) ← readDotOctet cs
  let (d, cs) ← readDotOctet cs
  return (⟨a, b, c, d⟩, cs)

/-- Reads a text that is a dotted quad and nothing else. -/
def parseChars? (cs : List Char) : Option Ipv4 :=
  match read cs with
  | some (x, []) => some x
  | _ => none

/-- Reads a text that is a dotted quad and nothing else. -/
def parse? (s : String) : Option Ipv4 := parseChars? s.toList

/-- This machine. -/
def loopback : Ipv4 := ⟨127, 0, 0, 1⟩

/-- The link-local endpoint where cloud instances find their metadata. -/
def linkLocalMetadata : Ipv4 := ⟨169, 254, 169, 254⟩

/-- The endpoint of the cloud platform that serves instance metadata. -/
def cloudMetadata : Ipv4 := ⟨168, 63, 129, 16⟩

end Ipv4

end EgressControl
