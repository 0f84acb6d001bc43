import Mathlib.Data.List.Induction

/-!
# Numbers as they are written

The digits of a number end where something else begins (`takeWhile_isDigit`), and the first of them
is no zero unless the number is (`head?_toDigits_ne_zero`).  Any other digits of which this is true
are the digits of some number, too (`toDigits_ofDigitChars`).
-/

namespace EgressControl.Text.Decimal

/-- A number is written in digits. -/
theorem isDigit_of_mem {n : Nat} {c : Char} (h : c ∈ Nat.toDigits 10 n) : c.isDigit = true :=
  Nat.isDigit_of_mem_toDigits (by decide) (by decide) h

/-- A number is all that can be read of digits, if what follows is none. -/
theorem takeWhile_isDigit (n : Nat) {rest : List Char}
    (h : ∀ c ∈ rest.head?, c.isDigit = false) :
    (Nat.toDigits 10 n ++ rest).takeWhile Char.isDigit = Nat.toDigits 10 n := by
  rw [List.takeWhile_append_of_pos fun c => isDigit_of_mem]
  cases rest with
  | nil => simp
  | cons c cs => simp [h c rfl]

/-- Only zero begins with the digit `0`. -/
theorem eq_zero_of_head?_toDigits {n : Nat} (h : (Nat.toDigits 10 n).head? = some '0') : n = 0 := by
  induction n using Nat.strongRecOn with
  | ind n ih =>
    by_cases hn : n < 10
    · rw [Nat.toDigits_of_lt_base hn] at h
      exact Nat.digitChar_eq_zero.mp (Option.some.inj h)
    · -- All digits but the last are those of a smaller number, which is no zero.
      obtain ⟨d, ds, hds⟩ := List.exists_cons_of_ne_nil (Nat.toDigits_ne_nil (n := n / 10))
      rw [Nat.toDigits_of_base_le (by decide) (Nat.le_of_not_lt hn), hds] at h
      have := ih (n / 10) (by omega) (by rw [hds]; exact h)
      omega

/-- A number of more than one digit does not begin with a zero. -/
theorem head?_toDigits_ne_zero {n : Nat} (h : 1 < (Nat.toDigits 10 n).length) :
    (Nat.toDigits 10 n).head? ≠ some '0' := by
  intro hzero
  rw [eq_zero_of_head?_toDigits hzero] at h
  simp at h

/-- A digit is the one of its own value. -/
private theorem digitChar_sub {c : Char} (h : c.isDigit = true) :
    c.toNat - '0'.toNat < 10 ∧ Nat.digitChar (c.toNat - '0'.toNat) = c := by
  simp only [Char.isDigit, ge_iff_le, Bool.and_eq_true, decide_eq_true_eq,
    UInt32.le_iff_toNat_le] at h
  have hlow : '0'.toNat ≤ c.toNat := h.1
  have hhigh : c.toNat ≤ '9'.toNat := h.2
  have hzero : '0'.toNat = 48 := rfl
  have hnine : '9'.toNat = 57 := rfl
  have hlt : c.toNat - '0'.toNat < 10 := by omega
  refine ⟨hlt, Char.toNat_inj.mp ?_⟩
  rw [Nat.toNat_digitChar_of_lt_ten hlt]
  omega

/-- Digits of which the first is no zero, unless it is the only one, are those of their value. -/
theorem toDigits_ofDigitChars {ds : List Char} (hds : ∀ c ∈ ds, c.isDigit = true) (hne : ds ≠ [])
    (hlead : 1 < ds.length → ds.head? ≠ some '0') :
    Nat.toDigits 10 (Nat.ofDigitChars 10 ds 0) = ds := by
  induction ds using List.reverseRecOn with
  | nil => exact absurd rfl hne
  | append_singleton ds c ih =>
    obtain ⟨hlt, hc⟩ := digitChar_sub (hds c (by simp))
    rw [Nat.ofDigitChars_append, Nat.ofDigitChars_cons, Nat.ofDigitChars_nil]
    by_cases hnil : ds = []
    · subst hnil
      rw [Nat.ofDigitChars_nil, Nat.mul_zero, Nat.zero_add, Nat.toDigits_of_lt_base hlt, hc,
        List.nil_append]
    · -- The digits before the last one begin with the same digit.
      have hhead : (ds ++ [c]).head? = ds.head? := by
        obtain ⟨d, rest, rfl⟩ := List.exists_cons_of_ne_nil hnil
        rfl
      have hlong : 1 < (ds ++ [c]).length := by
        have := List.length_pos_iff.mpr hnil
        simpa
      have hrest := ih (fun d hd => hds d (by simp [hd])) hnil fun _ => hhead ▸ hlead hlong
      have hpos : 0 < Nat.ofDigitChars 10 ds 0 := by
        apply Nat.pos_of_ne_zero
        intro hzero
        rw [hzero] at hrest
        exact hlead hlong (by rw [hhead, ← hrest]; rfl)
      rw [← Nat.toDigits_append_toDigits (by decide) hpos hlt, hrest, Nat.toDigits_of_lt_base hlt,
        hc]

end EgressControl.Text.Decimal
