import EgressControl.Address.Ipv4
import EgressControl.Proofs.Text.Blank
import EgressControl.Proofs.Text.Decimal

/-!
# Dotted quads

An address is read back from its dotted quad (`parse?_text`), so that different addresses have
different texts (`text_inj`).  No other text is read as an address (`parseChars?_eq_some_iff`).
-/

namespace EgressControl.Ipv4

open Text

/-- A byte has at most three decimal digits. -/
private theorem length_toDigits_le (b : UInt8) : (Nat.toDigits 10 b.toNat).length ≤ 3 := by
  have hbound := b.toNat_lt
  exact (Nat.length_toDigits_le_iff (by decide) (by decide)).mpr (by omega)

/-- An octet is read as far as its digits go. -/
private theorem readOctet_toDigits (b : UInt8) (rest : List Char)
    (hrest : ∀ c ∈ rest.head?, c.isDigit = false) :
    readOctet (Nat.toDigits 10 b.toNat ++ rest) = some (b, rest) := by
  have hbound := b.toNat_lt
  have hlength := length_toDigits_le b
  have hlead := @Decimal.head?_toDigits_ne_zero b.toNat
  simp only [readOctet, Decimal.takeWhile_isDigit _ hrest, Nat.ofDigitChars_ten_toDigits]
  rw [if_neg, if_neg, if_neg]
  · simp
  · omega
  · simpa using fun hzero => Nat.le_of_not_lt fun hlong => hlead hlong hzero
  · simpa using hlength

/-- `text` is made of the four bytes in decimal with dots between them. -/
theorem toList_text (x : Ipv4) :
    x.text.toList =
      Nat.toDigits 10 x.a.toNat ++ '.' :: (Nat.toDigits 10 x.b.toNat ++ '.' ::
        (Nat.toDigits 10 x.c.toNat ++ '.' :: Nat.toDigits 10 x.d.toNat)) := by
  simp [text]

/-- `text` has at most 15 characters. -/
theorem length_text_le (x : Ipv4) : x.text.length ≤ 15 := by
  have ha := length_toDigits_le x.a
  have hb := length_toDigits_le x.b
  have hc := length_toDigits_le x.c
  have hd := length_toDigits_le x.d
  rw [← String.length_toList, toList_text]
  simp only [List.length_append, List.length_cons]
  omega

/-- An address is read as far as its text goes. -/
theorem read_text_append (x : Ipv4) {rest : List Char}
    (hrest : ∀ c ∈ rest.head?, c.isDigit = false) :
    read (x.text.toList ++ rest) = some (x, rest) := by
  have hdot (rest : List Char) : ∀ c ∈ ('.' :: rest).head?, c.isDigit = false := by
    rintro c ⟨⟩
    rfl
  simp only [read, readDotOctet, toList_text, List.append_assoc, List.cons_append,
    readOctet_toDigits _ _ (hdot _), readOctet_toDigits _ _ hrest, Option.bind_eq_bind,
    Option.bind_some, Option.pure_def]

/-- An address is read back from its text. -/
theorem parse?_text (x : Ipv4) : parse? x.text = some x := by
  have hread : read (x.text.toList ++ []) = some (x, []) := x.read_text_append nofun
  rw [List.append_nil] at hread
  rw [parse?, parseChars?, hread]

/-- Two addresses with the same `text` are the same. -/
theorem text_inj {x y : Ipv4} : x.text = y.text ↔ x = y := by
  constructor
  · intro h
    have hx := parse?_text x
    rw [h, parse?_text] at hx
    exact (Option.some.inj hx).symm
  · rintro rfl
    rfl

/-- An address is written with digits and dots. -/
theorem isDigit_or_eq_of_mem_text {x : Ipv4} {c : Char} (h : c ∈ x.text.toList) :
    c.isDigit = true ∨ c = '.' := by
  simp only [toList_text, List.mem_append, List.mem_cons] at h
  rcases h with h | h | h | h | h | h | h
  · exact .inl (Decimal.isDigit_of_mem h)
  · exact .inr h
  · exact .inl (Decimal.isDigit_of_mem h)
  · exact .inr h
  · exact .inl (Decimal.isDigit_of_mem h)
  · exact .inr h
  · exact .inl (Decimal.isDigit_of_mem h)

/-- `text` holds digits and dots, and no other character. -/
theorem notMem_text {c : Char} (hdigit : c.isDigit = false) (hdot : c ≠ '.') (x : Ipv4) :
    c ∉ x.text.toList := fun hc => by
  rcases isDigit_or_eq_of_mem_text hc with h | h
  · exact absurd h (Bool.eq_false_iff.mp hdigit)
  · exact hdot h

/-- There is no white space in it. -/
theorem solid_text (x : Ipv4) : Solid x.text.toList := by
  intro c hc
  rcases isDigit_or_eq_of_mem_text hc with hdigit | rfl
  · exact isBlank_of_isDigit hdigit
  · rfl

/-- What is read as an octet are its digits. -/
private theorem eq_of_readOctet {cs rest : List Char} {b : UInt8}
    (h : readOctet cs = some (b, rest)) :
    cs = Nat.toDigits 10 b.toNat ++ rest := by
  simp only [readOctet] at h
  split at h
  · simp at h
  next hcount =>
    split at h
    · simp at h
    next hlead =>
      split at h
      · simp at h
      next hvalue =>
        obtain ⟨rfl, rfl⟩ := Prod.mk.inj (Option.some.inj h)
        -- No leading zero and at least one digit: the digits are the decimal spelling of
        -- their number.
        have hdigits : Nat.toDigits 10 (Nat.ofDigitChars 10 (cs.takeWhile Char.isDigit) 0) =
            cs.takeWhile Char.isDigit := by
          refine Decimal.toDigits_ofDigitChars ?_ ?_ ?_
          · exact List.all_eq_true.mp List.all_takeWhile
          · intro hnil
            simp [hnil] at hcount
          · intro hlong hzero
            simp [hlong, hzero] at hlead
        rw [UInt8.toNat_ofNat', Nat.mod_eq_of_lt (by omega), hdigits]
        exact (List.prefix_iff_eq_append.mp (List.takeWhile_prefix _)).symm

/-- What `readDotOctet` takes off is a dot and the decimal digits of a byte, without leading
zeros. -/
private theorem eq_of_readDotOctet {cs rest : List Char} {b : UInt8}
    (h : readDotOctet cs = some (b, rest)) : cs = '.' :: (Nat.toDigits 10 b.toNat ++ rest) := by
  unfold readDotOctet at h
  split at h
  · rw [← eq_of_readOctet h]
  · simp at h

/-- What is read as an address is its text. -/
theorem eq_of_read {cs rest : List Char} {x : Ipv4} (h : read cs = some (x, rest)) :
    cs = x.text.toList ++ rest := by
  simp only [read, Option.bind_eq_bind, Option.bind_eq_some_iff, Prod.exists, Option.pure_def,
    Option.some.injEq, Prod.mk.injEq] at h
  obtain ⟨a, as, ha, b, bs, hb, c, rest, hc, d, _, hd, rfl, rfl⟩ := h
  rw [eq_of_readOctet ha, eq_of_readDotOctet hb, eq_of_readDotOctet hc, eq_of_readDotOctet hd,
    toList_text]
  simp only [List.append_assoc, List.cons_append]

/-- Exactly the text of an address is read as this address. -/
theorem parseChars?_eq_some_iff {cs : List Char} {x : Ipv4} :
    parseChars? cs = some x ↔ cs = x.text.toList := by
  constructor
  · intro h
    unfold parseChars? at h
    split at h
    · next y hread =>
      obtain rfl := Option.some.inj h
      rw [eq_of_read hread, List.append_nil]
    · simp at h
  · rintro rfl
    exact parse?_text x

/-- `parseChars?` fails exactly on what is not the `text` of any address. -/
theorem parseChars?_eq_none_iff {cs : List Char} :
    parseChars? cs = none ↔ ∀ x : Ipv4, cs ≠ x.text.toList := by
  simp only [Option.eq_none_iff_forall_ne_some, ne_eq, parseChars?_eq_some_iff]

end EgressControl.Ipv4
