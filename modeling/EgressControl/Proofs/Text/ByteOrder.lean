import Mathlib.Data.Char
import Mathlib.Tactic.SplitIfs

/-!
# The order of texts is the order of their bytes

Texts are compared character by character.  Written in UTF-8 they can be compared byte by byte just
as well, with the same result (`lt_iff_toUTF8_lt`): the encodings of two characters differ at a byte
that both of them have, and there the smaller character has the smaller byte
(`utf8EncodeChar_append_lt`).
-/

namespace EgressControl.Text

/-- The bytes of a number: its digits to base 64, with marks that tell how many there are. -/
def bytesOf (n : Nat) : List UInt8 :=
  if n ≤ 0x7f then [.ofNat n]
  else if n ≤ 0x7ff then [.ofNat (n / 64 % 0x20 + 0xc0), .ofNat (n % 64 + 0x80)]
  else if n ≤ 0xffff then
    [.ofNat (n / 64 / 64 % 0x10 + 0xe0), .ofNat (n / 64 % 64 + 0x80), .ofNat (n % 64 + 0x80)]
  else
    [.ofNat (n / 64 / 64 / 64 % 8 + 0xf0), .ofNat (n / 64 / 64 % 64 + 0x80),
      .ofNat (n / 64 % 64 + 0x80), .ofNat (n % 64 + 0x80)]

/-- The encoding of a character is `bytesOf` its number. -/
theorem utf8EncodeChar_eq (c : Char) : String.utf8EncodeChar c = bytesOf c.toNat := by
  have hdigits (k : Nat) : k / 64 / 64 = k / 4096 ∧ k / 4096 / 64 = k / 262144 := by
    simp only [Nat.div_div_eq_div_mul, and_self]
  simp only [bytesOf, hdigits]
  rfl

/-- The encoding of a smaller character is smaller, whatever comes behind it. -/
theorem utf8EncodeChar_append_lt {c d : Char} (h : c < d) (xs ys : List UInt8) :
    String.utf8EncodeChar c ++ xs < String.utf8EncodeChar d ++ ys := by
  have hlt : c.toNat < d.toNat := h
  have hbound : d.toNat < 0x110000 := by
    have hvalid : d.toNat.isValidChar := d.valid
    rw [Nat.isValidChar] at hvalid
    omega
  rw [utf8EncodeChar_eq, utf8EncodeChar_eq, bytesOf, bytesOf]
  generalize c.toNat = m at hlt
  generalize d.toNat = n at hlt hbound
  -- Each of the numbers needs one to four bytes.  The first ones tell how many follow, and grow
  -- with the number; if there are as many, all bytes but the last marks are digits to base 64.
  split_ifs <;>
    simp only [List.cons_append, List.nil_append, List.cons_lt_cons_iff, UInt8.lt_iff_toNat_lt,
      ← UInt8.toNat_inj, UInt8.toNat_ofNat'] <;>
    omega

/-- The bytes of texts compare as the texts do. -/
private theorem flatMap_utf8EncodeChar_lt_iff {cs ds : List Char} :
    cs.flatMap String.utf8EncodeChar < ds.flatMap String.utf8EncodeChar ↔ cs < ds := by
  induction cs generalizing ds with
  | nil =>
    cases ds with
    | nil => simp
    | cons d ds =>
      obtain ⟨b, bs, hd⟩ := List.exists_cons_of_ne_nil (String.utf8EncodeChar_ne_nil (c := d))
      simp [hd]
  | cons c cs ih =>
    cases ds with
    | nil => simp
    | cons d ds =>
      rw [List.flatMap_cons, List.flatMap_cons, List.cons_lt_cons_iff]
      -- The first characters decide unless they are the same.
      rcases lt_trichotomy c d with hlt | rfl | hgt
      · exact iff_of_true (utf8EncodeChar_append_lt hlt ..) (.inl hlt)
      · -- The same bytes are in front on both sides.
        have hsame (bs : List UInt8) {xs ys : List UInt8} : bs ++ xs < bs ++ ys ↔ xs < ys := by
          induction bs with
          | nil => rfl
          | cons b bs ih => simpa using ih
        rw [hsame, ih]
        simp
      · have hbytes := utf8EncodeChar_append_lt hgt (ds.flatMap String.utf8EncodeChar)
          (cs.flatMap String.utf8EncodeChar)
        apply iff_of_false (List.lt_asymm hbytes)
        intro hless
        rcases hless with hlt | ⟨heq, -⟩
        · exact lt_asymm hgt hlt
        · exact ne_of_gt hgt heq

/-- A text is encoded character by character. -/
theorem toList_toUTF8 (s : String) :
    s.toUTF8.data.toList = s.toList.flatMap String.utf8EncodeChar := by
  rw [String.toUTF8, ← String.utf8Encode_toList, List.utf8Encode, List.toList_data_toByteArray]

/-- Texts are in the order of their bytes. -/
theorem lt_iff_toUTF8_lt {s t : String} :
    s < t ↔ s.toUTF8.data.toList < t.toUTF8.data.toList := by
  rw [String.lt_iff, toList_toUTF8, toList_toUTF8, flatMap_utf8EncodeChar_lt_iff]

end EgressControl.Text
