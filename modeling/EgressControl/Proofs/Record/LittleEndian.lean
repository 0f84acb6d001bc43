import EgressControl.Record.LittleEndian
import Mathlib.Algebra.Group.Nat.Defs

/-!
# The numbers that a word can hold

A word of `w` bytes stands for a number below `256 ^ w`, and every such number has a word.  On
these numbers and on lists of `w` bytes `decode` and `encode` are inverse.  `getElem?_encode` tells
the bytes of a word one by one.
-/

namespace EgressControl.LittleEndian

/-- `decode` gives a number that fits the bytes. -/
theorem decode_lt (bs : List UInt8) : decode bs < 256 ^ bs.length := by
  induction bs with
  | nil => simp [decode]
  | cons b bs ih =>
    have := b.toNat_lt
    simp only [decode, List.length_cons, Nat.pow_succ]
    omega

/-- `decode` gives back the number that `encode` has written, if it fits the width. -/
theorem decode_encode {w n : Nat} (h : n < 256 ^ w) : decode (encode w n) = n := by
  induction w generalizing n with
  | zero => simp at h; simp [encode, decode, h]
  | succ w ih =>
    rw [Nat.pow_succ] at h
    rw [encode, decode, ih (by omega)]
    simp only [UInt8.toNat_ofNat']
    omega

/-- Byte `i` of `encode` is the digit of the number to the base 256 with the weight `256 ^ i`. -/
theorem getElem?_encode {w n i : Nat} (h : i < w) :
    (encode w n)[i]? = some (UInt8.ofNat (n / 256 ^ i)) := by
  induction w generalizing n i with
  | zero => omega
  | succ w ih =>
    cases i with
    | zero => simp [encode]
    | succ i =>
      rw [encode, List.getElem?_cons_succ, ih (by omega), Nat.div_div_eq_div_mul, Nat.pow_succ']

end EgressControl.LittleEndian
