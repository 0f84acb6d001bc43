import EgressControl.Proofs.Engine.Course

/-!
# What a run gives back, and in which order

All that a run has acquired is given up exactly once before it ends, and no attachment is given up
while there is work (`run_releases_all_once`).  This is so whether the run succeeds or in which
phase it fails.

The collection is always the last to go.  The attachments go before the map of allowed addresses,
with one exception: a run that fails while the first addresses are written gives the map up first
(`run_releases_in_order`).
-/

namespace EgressControl.Engine

open Effect (phases acquired released)

/-- One of two resources comes before the other one. -/
def Precedes (x y : Resource) (rs : List Resource) : Prop := [x, y].Sublist rs

instance (x y : Resource) (rs : List Resource) : Decidable (Precedes x y rs) :=
  inferInstanceAs (Decidable ([x, y].Sublist rs))

/-- What stands in the first of two lists precedes what stands in the second one. -/
private theorem Precedes.append {x y : Resource} {rs rs' : List Resource} (hx : x ∈ rs)
    (hy : y ∈ rs') :
    Precedes x y (rs ++ rs') :=
  List.Sublist.append (List.singleton_sublist.mpr hx) (List.singleton_sublist.mpr hy)

namespace Teardown

variable {path : String} {links : List Attachment} {last : Phase} {gained given : List Resource}

/-- All that was acquired is given up, and nothing else. -/
private theorem perm (h : Teardown path links last gained given) : given.Perm gained := by
  -- The order differs from case to case, so each resource is counted.
  rw [List.perm_iff_count]
  intro x
  cases h with
  | finished hstreams =>
    have hcount := hstreams.count_eq x
    simp [List.count_cons] at hcount ⊢
    omega
  | unloaded | loaded | seeding | opening =>
    simp [List.count_cons, List.count_append, List.map_reverse] <;> omega

/-- Nothing is acquired twice. -/
private theorem nodup (h : Teardown path links last gained given) (hlinks : links.Nodup) :
    gained.Nodup := by
  have hlinks' : (links.map Resource.link).Nodup :=
    List.Pairwise.map _ (fun _ _ hne heq => hne (Resource.link.inj heq)) hlinks
  cases h with
  | unloaded => exact .nil
  | loaded | seeding | finished => simp [List.nodup_append, hlinks', openedName, closedName]
  -- Of the streams only those that were opened are there, in their order.
  | @opening _ _ _ streams hstreams =>
    have hstreams' : (streams.map Resource.stream).Nodup :=
      List.Pairwise.map _ (fun _ _ hne heq => hne (Resource.stream.inj heq))
        (hstreams.sublist.nodup (by decide))
    simp [List.nodup_append, hlinks', hstreams']

/-- The collection is the last to go. -/
private theorem collection_last (h : Teardown path links last gained given) {x : Resource}
    (hx : x ∈ given) : x = .collection path ∨ Precedes x (.collection path) given := by
  -- Whatever happened, the collection is given back last or was never loaded.
  obtain rfl | ⟨others, rfl⟩ : given = [] ∨ ∃ others, given = others ++ [.collection path] := by
    cases h with
    | unloaded => exact .inl rfl
    | loaded => exact .inr ⟨_, rfl⟩
    | seeding => exact .inr ⟨_, rfl⟩
    | opening => exact .inr ⟨_, (List.append_assoc _ [Resource.map AllowManager.mapName] _).symm⟩
    | finished => exact .inr ⟨_, (List.append_assoc _ [Resource.map AllowManager.mapName] _).symm⟩
  · exact absurd hx List.not_mem_nil
  · rcases List.mem_append.mp hx with hx | hx
    · exact .inr (Precedes.append hx List.mem_cons_self)
    · exact .inl (List.mem_singleton.mp hx)

/-- The attachments go before the map of allowed addresses, unless it could not be filled. -/
private theorem link_precedes_map (h : Teardown path links last gained given)
    (hlast : last ≠ .writeSeeds)
    {a : Attachment} (ha : .link a ∈ given) (hmap : .map AllowManager.mapName ∈ given) :
    Precedes (.link a) (.map AllowManager.mapName) given := by
  cases h with
  | unloaded => exact absurd ha List.not_mem_nil
  | loaded => simp at hmap
  | seeding => exact absurd rfl hlast
  | opening => exact Precedes.append (by simpa using ha) (by simp)
  | finished => exact Precedes.append (by simpa using ha) (by simp)

/-- The map of allowed addresses goes first if it could not be filled. -/
private theorem map_precedes_link (h : Teardown path links .writeSeeds gained given)
    {a : Attachment}
    (ha : .link a ∈ given) (hmap : .map AllowManager.mapName ∈ given) :
    Precedes (.map AllowManager.mapName) (.link a) given := by
  cases h with
  | unloaded => exact absurd ha List.not_mem_nil
  | loaded => simp at hmap
  | seeding =>
    have hrest : .link a ∈ links.map Resource.link ++ [.collection path] := by simpa using ha
    exact List.Sublist.cons_cons _ (List.singleton_sublist.mpr hrest)
  | opening hle => exact absurd hle (by decide)

end Teardown

/-- What a run has `released` is a permutation of what it has `acquired`, without repetition, and
no link is released in the phases of its work, of which `lastPhase` is the last. -/
theorem run_releases_all_once (c : Config) (h : Host) (r : Resolver) (schedule : Schedule) :
    let o := runUnder c h r schedule
    (released o.effects).Perm (acquired o.effects) ∧ (released o.effects).Nodup ∧
      ∃ work cleanup, o.effects = work ++ cleanup ∧ (phases work).getLast? = some o.lastPhase ∧
        phases cleanup = [] ∧ ∀ a, .link a ∉ released work := by
  obtain ⟨links, work, cleanup, heffects, hcourse⟩ := run_course c h r schedule
  have hacquired : acquired (work ++ cleanup) = acquired work := by
    rw [Effect.acquired_append, Effect.acquired_eq_nil_of_phases hcourse.idle, List.append_nil]
  have hperm := hcourse.teardown.perm
  have hnodup := hperm.nodup_iff.mpr (hcourse.teardown.nodup hcourse.nodup)
  dsimp only
  rw [heffects, hacquired]
  exact ⟨hperm, hnodup, work, cleanup, rfl, hcourse.ends, hcourse.idle, hcourse.attached⟩

/-- The collection is released last.  Every link that is released `Precedes` the allow map, but in
a run whose `lastPhase` is `writeSeeds` the allow map `Precedes` every link. -/
theorem run_releases_in_order (c : Config) (h : Host) (r : Resolver) (schedule : Schedule) :
    let o := runUnder c h r schedule
    (∀ x ∈ released o.effects,
      x = .collection c.artifact ∨ Precedes x (.collection c.artifact) (released o.effects)) ∧
    ∀ a, .link a ∈ released o.effects → .map AllowManager.mapName ∈ released o.effects →
      if o.lastPhase = .writeSeeds then
        Precedes (.map AllowManager.mapName) (.link a) (released o.effects)
      else Precedes (.link a) (.map AllowManager.mapName) (released o.effects) := by
  obtain ⟨links, work, cleanup, heffects, hcourse⟩ := run_course c h r schedule
  have hteardown := hcourse.teardown
  dsimp only
  rw [heffects]
  refine ⟨fun x hx => hteardown.collection_last hx, fun a ha hmap => ?_⟩
  -- The last phase tells which teardown it was.
  split
  · next hlast =>
    rw [hlast] at hteardown
    exact hteardown.map_precedes_link ha hmap
  · next hlast => exact hteardown.link_precedes_map hlast ha hmap

/-- An object file with one program and the maps that a run needs. -/
def probeObject : ObjectFile where
  code := [⟨"tcp_connect", "kprobe/tcp_connect", []⟩]
  maps := [⟨Mode.mapName, .hash, 4, 4, 4⟩, ⟨AllowManager.mapName, .hash, 4, 4, 64⟩,
    ⟨openedName, .perf, 4, 4, 0⟩, ⟨closedName, .perf, 4, 4, 0⟩]

/-- A host with this object file and a kernel that refuses some calls. -/
def probeHost (refuses : List KernelCall) : Host where
  disk := Disk.fresh.put "kntrl.o" (.file .empty)
  kernel := { refuses }
  parseObject := fun _ => .ok probeObject
  clock := fun _ => ""

/-- A run on such a host in the mode with a name. -/
def probeConfig (mode : String) : Config :=
  { Config.default "kntrl.o" with mode, seed := {} }

/-- A refused write of the first address: the map goes before the program is detached. -/
theorem run_releases_map_first :
    let h := probeHost [.updateMap AllowManager.mapName]
    let o := run (probeConfig "trace") h .empty "SIGTERM"
    let link : Resource := .link ⟨"tcp_connect", .symbol "tcp_connect"⟩
    link ∈ acquired o.effects ∧
      released o.effects = [.map AllowManager.mapName, link, .collection "kntrl.o"] ∧
      ¬ Precedes link (.map AllowManager.mapName) (released o.effects) := by
  decide +kernel

end EgressControl.Engine
