import EgressControl.Connection
import EgressControl.Proofs.Address.DottedQuad
import EgressControl.Text.Split

/-!
# Addresses with ports

The colon between address and port is the first one in the text, so that both are seen from it
(`endpoint_inj`).  The text has 21 characters at most (`length_endpoint_le`).
-/

namespace EgressControl.Connection

variable {x y : Ipv4} {p q : UInt16}

/-- `endpoint` is the text of the address, a colon, and the port in decimal. -/
private theorem toList_endpoint (x : Ipv4) (p : UInt16) :
    (endpoint x p).toList = x.text.toList ++ ':' :: Nat.toDigits 10 p.toNat := by
  simp [endpoint]

/-- Two endpoints with the same text have the same address and the same port. -/
theorem endpoint_inj : endpoint x p = endpoint y q ↔ x = y ∧ p = q := by
  constructor
  · intro h
    -- No colon stands before the one between address and port.
    have hcut (x : Ipv4) (p : UInt16) : Text.cutFirst ':' (endpoint x p).toList =
        some (x.text.toList, Nat.toDigits 10 p.toNat) := by
      have hcolon : ':' ∉ x.text.toList := Ipv4.notMem_text (by decide) (by decide) x
      exact Text.cutFirst_eq_some_iff.mpr ⟨toList_endpoint x p, hcolon⟩
    have hboth := hcut x p
    rw [h, hcut y q, Option.some.injEq, Prod.mk.injEq, String.toList_inj, Ipv4.text_inj] at hboth
    refine ⟨hboth.1.symm, UInt16.toNat_inj.mp ?_⟩
    rw [← Nat.ofDigitChars_ten_toDigits (n := p.toNat), ← hboth.2, Nat.ofDigitChars_ten_toDigits]
  · rintro ⟨rfl, rfl⟩
    rfl

/-- `endpoint` has at most 21 characters: 15 for the address, one for the colon and five for the
port. -/
theorem length_endpoint_le (x : Ipv4) (p : UInt16) : (endpoint x p).length ≤ 21 := by
  have htext := x.length_text_le
  have hport : (Nat.toDigits 10 p.toNat).length ≤ 5 :=
    (Nat.length_toDigits_le_iff (by decide) (by decide)).mpr (by have := p.toNat_lt; omega)
  rw [← String.length_toList, toList_endpoint, List.length_append, List.length_cons,
    String.length_toList]
  omega

end EgressControl.Connection
