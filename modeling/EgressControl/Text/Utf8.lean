/-! # Reading bytes as UTF-8

`decodeLossy` reads any list of bytes as text.  A well-formed sequence is its character; where
no character can be read, the longest proper beginning of a well-formed sequence that stands
there (at least one byte) becomes one replacement character, and reading goes on behind it. -/

namespace EgressControl.Text.Utf8

/-- The character that stands for bytes that are no character. -/
def replacement : Char := '\ufffd'

/-- What the first byte of a sequence of two to four bytes fixes: the bounds of the second
byte, the payload bits of the first, and how many bytes follow the second. -/
structure Lead where
  low : UInt8
  high : UInt8
  bits : Nat
  more : Nat

/-- Sorts out a first byte of `0x80` or above.  The bounds of the second byte shut out overlong
forms, surrogates and values above `0x10ffff`. -/
def lead? (b : UInt8) : Option Lead :=
  -- `0xc0` and `0xc1` could begin overlong forms only.
  if b < 0xc2 then none
  else if b < 0xe0 then some ⟨0x80, 0xbf, b.toNat - 0xc0, 0⟩
  else if b = 0xe0 then some ⟨0xa0, 0xbf, 0, 1⟩
  else if b = 0xed then some ⟨0x80, 0x9f, 0xd, 1⟩
  else if b < 0xf0 then some ⟨0x80, 0xbf, b.toNat - 0xe0, 1⟩
  else if b = 0xf0 then some ⟨0x90, 0xbf, 0, 2⟩
  else if b < 0xf4 then some ⟨0x80, 0xbf, b.toNat - 0xf0, 2⟩
  else if b = 0xf4 then some ⟨0x80, 0x8f, 4, 2⟩
  else none

/-- Reads the given number of trailing bytes onto the bits read so far.  The result is the
number of the character, if all are there, and the bytes not used. -/
def trailing (bits : Nat) : Nat → List UInt8 → Option Nat × List UInt8
  | 0, bs => (some bits, bs)
  | _ + 1, [] => (none, [])
  | n + 1, b :: bs =>
    if 0x80 ≤ b ∧ b ≤ 0xbf then trailing (bits * 64 + (b.toNat - 0x80)) n bs else (none, b :: bs)

/-- Reads what follows a first byte of `0x80` or above. -/
def sequence (b : UInt8) (bs : List UInt8) : Option Nat × List UInt8 :=
  match lead? b with
  | none => (none, bs)
  | some l =>
    match bs with
    | [] => (none, [])
    | c :: cs =>
      if l.low ≤ c ∧ c ≤ l.high then trailing (l.bits * 64 + (c.toNat - 0x80)) l.more cs
      else (none, c :: cs)

/-- `trailing` leaves no more bytes than it was given. -/
private theorem length_trailing_le (bits n : Nat) (bs : List UInt8) :
    (trailing bits n bs).2.length ≤ bs.length := by
  induction n generalizing bits bs with
  | zero => exact Nat.le_refl _
  | succ n ih =>
    cases bs with
    | nil => exact Nat.le_refl _
    | cons b bs =>
      rw [trailing]
      split
      · exact Nat.le_succ_of_le (ih ..)
      · exact Nat.le_refl _

/-- `sequence` leaves no more bytes than it was given. -/
theorem length_sequence_le (b : UInt8) (bs : List UInt8) :
    (sequence b bs).2.length ≤ bs.length := by
  rw [sequence]
  match lead? b, bs with
  | none, _ => simp
  | some _, [] => simp
  | some l, c :: cs =>
    have := length_trailing_le (l.bits * 64 + (c.toNat - 0x80)) l.more cs
    simp only [List.length_cons]
    split
    · exact Nat.le_succ_of_le this
    · exact Nat.le_refl _

/-- Reads bytes as text, with one replacement character for each stretch that is none. -/
def decodeLossy : List UInt8 → List Char
  | [] => []
  | b :: bs =>
    if b < 0x80 then Char.ofNat b.toNat :: decodeLossy bs
    else
      have := length_sequence_le b bs
      ((sequence b bs).1.elim replacement Char.ofNat) :: decodeLossy (sequence b bs).2
termination_by bs => bs.length
decreasing_by
  · simp
  · simp only [List.length_cons]; omega

/-- No character takes less than a byte. -/
theorem length_decodeLossy_le (bs : List UInt8) : (decodeLossy bs).length ≤ bs.length := by
  fun_induction decodeLossy bs with
  | case1 => exact Nat.le_refl _
  | case2 b bs hb ih => exact Nat.succ_le_succ ih
  | case3 b bs hb hle ih => exact Nat.succ_le_succ (Nat.le_trans ih hle)

end EgressControl.Text.Utf8
