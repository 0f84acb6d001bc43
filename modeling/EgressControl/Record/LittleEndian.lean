/-! # Little-endian words

A word of `w` bytes is written least significant byte first.  `encode` gives back the bytes that
`decode` has read. -/

namespace EgressControl.LittleEndian

/-- The number that a list of bytes stands for. -/
def decode : List UInt8 → Nat
  | [] => 0
  | b :: bs => b.toNat + 256 * decode bs

/-- The lowest bytes of a number, as many as asked for. -/
def encode : Nat → Nat → List UInt8
  | 0, _ => []
  | w + 1, n => UInt8.ofNat n :: encode w (n / 256)

/-- `encode w` makes `w` bytes of every number. -/
@[simp] theorem length_encode (w n : Nat) : (encode w n).length = w := by
  induction w generalizing n with
  | zero => rfl
  | succ w ih => simp [encode, ih]

/-- `encode` gives back the bytes from which `decode` has made a number, if it is asked for as
many. -/
theorem encode_decode {bs : List UInt8} {w : Nat} (h : bs.length = w) :
    encode w (decode bs) = bs := by
  induction bs generalizing w with
  | nil => subst h; rfl
  | cons b bs ih =>
    subst h
    have hb := b.toNat_lt
    rw [List.length_cons, encode, decode]
    -- The low byte is the remainder, the other bytes the quotient by 256.
    have hdiv : (b.toNat + 256 * decode bs) / 256 = decode bs := by omega
    have hmod : UInt8.ofNat (b.toNat + 256 * decode bs) = b := by
      apply UInt8.toNat_inj.mp
      simp only [UInt8.toNat_ofNat']
      omega
    rw [hdiv, hmod, ih rfl]

end EgressControl.LittleEndian
