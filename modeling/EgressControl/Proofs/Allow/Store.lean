import EgressControl.Allow.Store

/-!
# What a store in memory lets in

A `MemoryStore` turns an address down if the address cannot be written at all, or if there is no
room for it (`Refuses`).  `put_eq_ok_iff` says that every other address is written, and what the
store is afterwards.

Nothing is ever taken out, so a store that has no room for an address never gets any:
`refuses_of_put`.  What is looked up after a write is `lookup_of_put`.
-/

namespace EgressControl.MemoryStore

/-- Whether a store turns an address down. -/
def Refuses (s : MemoryStore) (x : Ipv4) : Prop := x ∈ s.rejected ∨ s.hasRoom x.key = false

/-- There is no room for an address that is not there yet, in a store that is full. -/
theorem hasRoom_eq_false_iff {s : MemoryStore} {key : UInt32} :
    s.hasRoom key = false ↔
      s.entries.contains key = false ∧ ∃ c, s.capacity = some c ∧ c ≤ s.entries.size := by
  cases hc : s.capacity <;> simp [hasRoom, hc]

/-- An address is written unless it is turned down. -/
theorem put_eq_ok_iff {s t : MemoryStore} {x : Ipv4} :
    s.put x = .ok t ↔
      ¬s.Refuses x ∧ t = { s with entries := s.entries.insert x.key allowPresent } := by
  unfold put Refuses
  split
  · next hx => simp [hx]
  · next hx =>
    split
    · next hroom => simp [hx, hroom, eq_comm]
    · next hroom => simp [hroom]

/-- A failed write means that the address is turned down. -/
theorem refuses_of_put_error {s : MemoryStore} {x : Ipv4} {e : MapError}
    (h : s.put x = .error e) : s.Refuses x := by
  by_cases hx : s.Refuses x
  · exact hx
  · have hput := put_eq_ok_iff.mpr ⟨hx, rfl⟩
    rw [h] at hput
    simp at hput

section

variable {s t : MemoryStore} {y : Ipv4} (h : s.put y = .ok t)
include h

/-- `put` leaves the `capacity` as it is. -/
theorem capacity_of_put : t.capacity = s.capacity := by
  rw [(put_eq_ok_iff.mp h).2]

/-- `put` leaves `rejected` as it is. -/
theorem rejected_of_put : t.rejected = s.rejected := by
  rw [(put_eq_ok_iff.mp h).2]

/-- `put` writes the mark of its address, and changes no other entry. -/
theorem get?_of_put (key : UInt32) :
    t.entries.get? key = if key = y.key then some allowPresent else s.entries.get? key := by
  rw [(put_eq_ok_iff.mp h).2]
  simp only [Table.get?_insert, Std.LawfulEqCmp.compare_eq_iff_eq]

/-- A write adds its own key, and takes none away. -/
theorem contains_of_put {key : UInt32} :
    t.entries.contains key = true ↔ key = y.key ∨ s.entries.contains key = true := by
  rw [(put_eq_ok_iff.mp h).2]
  exact Table.contains_insert

/-- What has been turned down once is turned down from then on. -/
theorem refuses_of_put {x : Ipv4} (hx : s.Refuses x) : t.Refuses x := by
  rcases hx with hrej | hroom
  · exact .inl (by rwa [rejected_of_put h])
  · obtain ⟨hnot, c, hc, hfull⟩ := hasRoom_eq_false_iff.mp hroom
    -- There was room for `y` in a full store, so that `y` was there already.
    have hy : s.entries.contains y.key = true := by
      have hok := (put_eq_ok_iff.mp h).1
      cases hy : s.entries.contains y.key with
      | true => rfl
      | false => exact absurd (.inr (hasRoom_eq_false_iff.mpr ⟨hy, c, hc, hfull⟩)) hok
    have hsize : t.entries.size = s.entries.size := by
      rw [(put_eq_ok_iff.mp h).2]
      simp [Table.insert, Table.size_alter, hy]
    have hstill : t.entries.contains x.key = false := by
      cases ht : t.entries.contains x.key with
      | false => rfl
      | true =>
        rcases (contains_of_put h).mp ht with hkey | hs
        · exact absurd (hkey ▸ hy) (by simp [hnot])
        · exact absurd hs (by simp [hnot])
    exact .inr (hasRoom_eq_false_iff.mpr ⟨hstill, c, (capacity_of_put h).trans hc, by omega⟩)

end

/-- After a write the address has its mark, and every other one is looked up as before. -/
theorem lookup_of_put {s t : MemoryStore} {y : Ipv4} (h : s.put y = .ok t) (x : Ipv4) :
    t.lookup x = if x = y then .ok (some allowPresent) else s.lookup x := by
  have hy : y ∉ s.rejected := fun hrej => (put_eq_ok_iff.mp h).1 (.inl hrej)
  simp only [lookup, rejected_of_put h, get?_of_put h, Ipv4.key_inj]
  by_cases hxy : x = y
  · subst hxy
    simp [hy]
  · simp [hxy]

/-- What is looked up as present is not turned down. -/
theorem not_refuses_of_lookup {s : MemoryStore} {x : Ipv4} {v : UInt32}
    (h : s.lookup x = .ok (some v)) : ¬s.Refuses x := by
  unfold lookup at h
  split at h
  · simp at h
  · next hrej =>
    -- The key is present, so the map has room for it, full or not.
    have hin : s.entries.contains x.key = true := by
      rw [Table.contains, Except.ok.inj h]
      rfl
    rintro (hx | hroom)
    · exact hrej hx
    · simp [(hasRoom_eq_false_iff.mp hroom).1] at hin

/-- A store without limit turns down what cannot be written, and nothing else. -/
theorem refuses_iff_of_capacity_eq_none {s : MemoryStore} (h : s.capacity = none) {x : Ipv4} :
    s.Refuses x ↔ x ∈ s.rejected := by
  simp [Refuses, hasRoom_eq_false_iff, h]

end EgressControl.MemoryStore
