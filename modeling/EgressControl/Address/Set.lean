import EgressControl.Address.Ipv4
import EgressControl.Table

/-! # Sets of addresses

A set of addresses lists each of them once, in numeric order. -/

namespace EgressControl

/-- A set of addresses, in numeric order. -/
abbrev AddressSet := Table Ipv4 Unit

namespace AddressSet

/-- Adds an address. -/
def add (s : AddressSet) (x : Ipv4) : AddressSet := s.insert x ()

/-- Adds the addresses of a list. -/
def addAll (s : AddressSet) (xs : List Ipv4) : AddressSet := xs.foldl add s

/-- The addresses, each once. -/
def toList (s : AddressSet) : List Ipv4 := s.keys

/-- `addAll` adds the addresses of the list, and no others. -/
theorem contains_addAll {s : AddressSet} {xs : List Ipv4} {x : Ipv4} :
    (s.addAll xs).contains x = true ↔ x ∈ xs ∨ s.contains x = true := by
  induction xs generalizing s with
  | nil => simp [addAll]
  | cons y ys ih =>
    have hcons : s.addAll (y :: ys) = (s.add y).addAll ys := rfl
    rw [hcons, ih, add, Table.contains_insert, List.mem_cons]
    exact or_left_comm.trans or_assoc.symm

/-- Sets with the same addresses are equal. -/
theorem ext_contains {s t : AddressSet} (h : ∀ x, s.contains x = true ↔ t.contains x = true) :
    s = t := by
  refine Table.ext_get? fun x => ?_
  have hx := h x
  simp only [Table.contains] at hx
  cases hs : s.get? x <;> cases ht : t.get? x <;> simp_all

end AddressSet

end EgressControl
