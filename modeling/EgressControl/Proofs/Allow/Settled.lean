import EgressControl.Proofs.Allow.Observe
import EgressControl.Proofs.Allow.Store

/-!
# An address is decided once

The first time that an address is observed decides what becomes of it for the rest of a run: it has
no allowed name, or it is let in, or the store turns it down and will always do so (`Settled`).
Together with `Backed`, which says that nothing is counted as let in that does not stand in the
store, this makes the answer of every later observation the same as that of the first one.

- `observe_lets_in_or_not`: the two things that an observation does to a store in memory;
- `settled_observe`, `Settled.observe`: an observed address is settled, and stays so;
- `allowed_iff_contains`: the answer says whether the address has been let in so far;
- `Settled.contains_observe_iff`: nobody lets a settled address in afterwards.
-/

namespace EgressControl.AllowManager

/-- Every address that counts as let in has an allowed name and stands in the store. -/
def Backed (r : Resolver) (m : AllowManager MemoryStore) : Prop :=
  ∀ x, m.extended.contains x = true →
    r.Permits m.suffixes x ∧ m.store.lookup x = .ok (some allowPresent)

/-- What becomes of an address is decided: if it is to be let in, then it has been, or it is turned
down. -/
def Settled (r : Resolver) (m : AllowManager MemoryStore) (x : Ipv4) : Prop :=
  r.Permits m.suffixes x → m.extended.contains x = true ∨ m.store.Refuses x

variable {r : Resolver} {m : AllowManager MemoryStore} {x y : Ipv4}

/-- An observation leaves all as it is, if the address need not be let in or cannot be, and
otherwise lets it in. -/
theorem observe_lets_in_or_not (r : Resolver) (m : AllowManager MemoryStore) (x : Ipv4) :
    let o := m.observe x (r.namesOf x)
    (o.manager = m ∧ o.allowed = false ∧ (r.Permits m.suffixes x → m.store.Refuses x)) ∨
    (∃ store, m.store.put x = .ok store ∧ r.Permits m.suffixes x ∧
      o.manager = { m with store, extended := m.extended.add x } ∧ o.allowed = true) := by
  intro o
  have hiff := isSome_matchingName_iff (m := m) (r := r) (x := x)
  rcases m.observe_cases x (r.namesOf x) with
    ⟨hname, heq⟩ | ⟨name, e, hname, hput, heq⟩ | ⟨name, store, hname, hput, heq⟩
  · have hnot : ¬r.Permits m.suffixes x := by rw [← hiff, hname]; simp
    exact .inl ⟨congrArg _ heq, congrArg _ heq, fun h => absurd h hnot⟩
  · exact .inl ⟨congrArg _ heq, congrArg _ heq, fun _ => MemoryStore.refuses_of_put_error hput⟩
  · have hpermits : r.Permits m.suffixes x := by rw [← hiff, hname]; rfl
    exact .inr ⟨store, hput, hpermits, congrArg _ heq, congrArg _ heq⟩

/-- Nothing counts as let in before the first observation. -/
theorem Backed.of_extended_eq_empty (h : m.extended = .empty) : Backed r m := by
  intro x hx
  rw [h] at hx
  simp [Table.contains] at hx

/-- What counts as let in is not turned down. -/
private theorem Backed.not_refuses (h : Backed r m) (hx : m.extended.contains x = true) :
    ¬m.store.Refuses x :=
  MemoryStore.not_refuses_of_lookup (h x hx).2

/-- An observation keeps the store and the count of those let in together. -/
theorem Backed.observe (h : Backed r m) (x : Ipv4) :
    Backed r (m.observe x (r.namesOf x)).manager := by
  rcases observe_lets_in_or_not r m x with ⟨hm, -, -⟩ | ⟨store, hput, hpermits, hm, -⟩
  · rwa [hm]
  · rw [hm]
    intro y hy
    rw [MemoryStore.lookup_of_put hput]
    rcases Table.contains_insert.mp hy with rfl | hold
    · exact ⟨hpermits, if_pos rfl⟩
    · -- The mark of another address is not touched, and this one has it too.
      obtain ⟨hy', hlookup⟩ := h y hold
      refine ⟨hy', ?_⟩
      split
      · rfl
      · exact hlookup

/-- An observation decides about its address. -/
theorem settled_observe (r : Resolver) (m : AllowManager MemoryStore) (x : Ipv4) :
    Settled r (m.observe x (r.namesOf x)).manager x := by
  rcases observe_lets_in_or_not r m x with ⟨hm, -, hrefuses⟩ | ⟨store, -, -, hm, -⟩
  · rw [hm]
    exact fun hpermits => .inr (hrefuses hpermits)
  · rw [hm]
    exact fun _ => .inl (Table.contains_insert.mpr (.inl rfl))

/-- What has been decided stays so. -/
theorem Settled.observe (h : Settled r m y) (x : Ipv4) :
    Settled r (m.observe x (r.namesOf x)).manager y := by
  rcases observe_lets_in_or_not r m x with ⟨hm, -, -⟩ | ⟨store, hput, -, hm, -⟩
  · rwa [hm]
  · rw [hm]
    intro hpermits
    rcases h hpermits with hin | hrefuses
    · exact .inl (Table.contains_insert.mpr (.inr hin))
    · exact .inr (MemoryStore.refuses_of_put hput hrefuses)

/-- An observation answers whether its address has been let in so far. -/
theorem allowed_iff_contains (h : Backed r m) (x : Ipv4) :
    (m.observe x (r.namesOf x)).allowed = true ↔
      (m.observe x (r.namesOf x)).manager.extended.contains x = true := by
  rcases observe_lets_in_or_not r m x with ⟨hm, hallowed, hrefuses⟩ | ⟨store, -, -, hm, hallowed⟩
  · -- Had it been let in before, it would have a name and could not be turned down.
    have hnot : ¬m.extended.contains x = true := fun hin =>
      h.not_refuses hin (hrefuses (h x hin).1)
    simp [hm, hallowed, hnot]
  · simp [hm, hallowed, AddressSet.add, Table.contains_insert]

/-- An observation lets no settled address in that has not been let in before. -/
theorem Settled.contains_observe_iff (h : Settled r m y) (x : Ipv4) :
    (m.observe x (r.namesOf x)).manager.extended.contains y = true ↔
      m.extended.contains y = true := by
  rcases observe_lets_in_or_not r m x with ⟨hm, -, -⟩ | ⟨store, hput, hpermits, hm, -⟩
  · rw [hm]
  · rw [hm]
    refine ⟨fun hy => ?_, fun hy => Table.contains_insert.mpr (.inr hy)⟩
    rcases Table.contains_insert.mp hy with rfl | hold
    · -- The write went well, so that the address was not turned down.
      exact (h hpermits).resolve_right (MemoryStore.put_eq_ok_iff.mp hput).1
    · exact hold

end EgressControl.AllowManager
