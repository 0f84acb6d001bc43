import EgressControl.Allow.Manager
import EgressControl.Resolver

/-!
# Which addresses are let in

An address is let in because of its names: one of them has to contain one of the texts that the
manager was given (`Resolver.Permits`).  `observe_cases` says all that an observation can do:
there is no such name, or the store turns the address down, or the address is let in.
-/

namespace EgressControl

/-- The names under which an address is looked at: those of the table, or the root name if the
table has none. -/
inductive Resolver.IsName (r : Resolver) (x : Ipv4) : String → Prop where
  | listed {names : List String} {name : String} :
    r.names.get? x = some names → name ∈ names → IsName r x name
  | unresolved : (∀ names, r.names.get? x = some names → names = []) → IsName r x "."

/-- Whether an address is to be let in: one of its names contains one of the given texts. -/
def Resolver.Permits (r : Resolver) (suffixes : List String) (x : Ipv4) : Prop :=
  ∃ name, r.IsName x name ∧ ∃ s ∈ suffixes, s.toList <:+: name.toList

namespace Resolver

/-- `namesOf` lists the names that `IsName` tells, the stand-in for no name among them. -/
private theorem mem_namesOf_iff {r : Resolver} {x : Ipv4} {name : String} :
    name ∈ r.namesOf x ↔ r.IsName x name := by
  -- The three answers of a resolver: an empty list, no list, and a list with names.
  unfold namesOf
  constructor
  · intro h
    split at h
    · next hx =>
      rw [List.mem_singleton.mp h]
      exact .unresolved (by simp [hx])
    · next hx =>
      rw [List.mem_singleton.mp h]
      exact .unresolved (by simp [hx])
    · next hx => exact .listed hx h
  · intro h
    cases h with
    | listed hx hmem =>
      rw [hx]
      split
      · next hnone => simp at hnone
      · next hnil => simp_all
      · next hcons => rwa [← Option.some.inj hcons]
    | unresolved hnone =>
      split
      · exact List.mem_singleton.mpr rfl
      · exact List.mem_singleton.mpr rfl
      · next hcons => exact absurd (hnone _ hcons) (by simp)

/-- An address without names is let in only if the root name is. -/
theorem Permits.of_no_names {r : Resolver} {suffixes : List String} {x : Ipv4}
    (h : r.Permits suffixes x) (hx : ∀ names, r.names.get? x = some names → names = []) :
    ∃ s ∈ suffixes, s = "" ∨ s = "." := by
  obtain ⟨name, hname, s, hs, hin⟩ := h
  refine ⟨s, hs, ?_⟩
  have hroot : name = "." := by
    cases hname with
    | listed hget hmem => simp [hx _ hget] at hmem
    | unresolved => rfl
  subst hroot
  -- A suffix that occurs in the one character name is that name or empty.
  have hcases : (s = "" ∨ s.toList = ['.']) ∨ s = "" := by
    simpa [List.infix_cons_iff, List.prefix_cons_iff] using hin
  rcases hcases with (hempty | hdot) | hempty
  · exact .inl hempty
  · exact .inr (String.toList_inj.mp hdot)
  · exact .inl hempty

end Resolver

namespace AllowManager

variable {σ : Type}

/-- A name is allowed if one of the suffixes occurs in it. -/
theorem allows_iff {m : AllowManager σ} {name : String} :
    m.allows name = true ↔ ∃ s ∈ m.suffixes, s.toList <:+: name.toList := by
  simp [allows, Text.occursIn_iff]

/-- A name is found among the names of an address exactly if the address is to be let in. -/
theorem isSome_matchingName_iff {m : AllowManager σ} {r : Resolver} {x : Ipv4} :
    (m.matchingName (r.namesOf x)).isSome = true ↔ r.Permits m.suffixes x := by
  simp only [matchingName, List.find?_isSome, allows_iff, Resolver.mem_namesOf_iff,
    Resolver.Permits]

variable [AllowStore σ]

/-- What an observation does: nothing if no name matches, nothing but a line if the store turns the
address down, and otherwise the address is written and remembered. -/
theorem observe_cases (m : AllowManager σ) (x : Ipv4) (names : List String) :
    (m.matchingName names = none ∧ m.observe x names = ⟨m, false, []⟩) ∨
    (∃ name e, m.matchingName names = some name ∧ AllowStore.put m.store x = .error e ∧
      m.observe x names = ⟨m, false, [failureLine x e]⟩) ∨
    (∃ name store, m.matchingName names = some name ∧ AllowStore.put m.store x = .ok store ∧
      m.observe x names =
        ⟨{ m with store, extended := m.extended.add x }, true,
          if m.extended.contains x then [] else [extensionLine x name]⟩) := by
  unfold observe
  cases hname : m.matchingName names with
  | none => exact .inl ⟨rfl, rfl⟩
  | some name =>
    cases hput : AllowStore.put m.store x with
    | error e => exact .inr (.inl ⟨name, e, rfl, rfl, rfl⟩)
    | ok store => exact .inr (.inr ⟨name, store, rfl, rfl, rfl⟩)

end AllowManager

end EgressControl
