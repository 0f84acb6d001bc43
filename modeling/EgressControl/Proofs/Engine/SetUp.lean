import EgressControl.Proofs.Collection
import EgressControl.Proofs.Engine.Attaching

/-!
# How setting up ends

There is one lemma for each piece of setting up.  `Teardown` lists what has been acquired by the
end of a run and in which order it is given up, by the phase in which the run ends; `context_spec`
and `setUp_spec` say that setting up ends well or with one of these.
-/

namespace EgressControl

/-- Whatever is wrong with an object file, the phase `load` fails. -/
private theorem SetupError.phase_ofObjectError (path : String) (e : ObjectError) :
    (ofObjectError path e).phase = .load := by
  cases e <;> rfl

/-- Whatever goes wrong with loading belongs to this phase. -/
theorem Collection.phase_of_load_error {k : Kernel}
    {parse : ByteArray → Except FormatError ObjectFile} {d : Disk} {path : String} {e : SetupError}
    (h : (load k parse d path).2 = .error e) : e.phase = .load := by
  unfold load at h
  split at h
  · exact Except.error.inj h ▸ rfl
  · split at h
    · exact Except.error.inj h ▸ rfl
    · split at h
      · exact Except.error.inj h ▸ SetupError.phase_ofObjectError _ _
      · simp at h

/-- Only a write of an address can go wrong with filling the map. -/
theorem AllowManager.Seeding.phase_of_error {σ : Type} {s : Seeding σ} {e : SetupError}
    (h : s.result = .error e) : e.phase = .writeSeeds := by
  unfold result at h
  split at h
  · simp at h
  · exact Except.error.inj h ▸ rfl

/-- What may be refused for one reason only is refused for this reason. -/
theorem SetupError.eq_of_refused {b : Prop} [Decidable b] {e e' : SetupError}
    (h : (if b then .error e else .ok () : Except SetupError Unit) = .error e') : e' = e := by
  split at h
  · exact (Except.error.inj h).symm
  · simp at h

namespace Engine

open Effect (Within Cleanup phases acquired released)
open Setup (releasing)

/-! ## The pieces -/

/-- A check has an effect of its own, and nothing else but its answer. -/
private theorem check_spec {q : Phase} {x : Effect} {r : Except SetupError Unit} (maps : KernelMaps)
    (hphase : x.phase? = some q) (hacquires : x.acquires? = none) (hreleases : x.releases? = none)
    (hr : ∀ e, r = .error e → e.phase = q) :
    let check : Setup Unit := do Setup.emit [x]; Setup.lift r
    (check maps).Succeeds q q () [] ∨ (check maps).Fails q q [] [] := by
  have hphases : phases [x] = [q] := List.filterMap_cons_some hphase
  have hwithin : Within q [] [] [x] := .single hphase hacquires hreleases
  cases r with
  | ok u =>
    exact .inl (Part.succeeds_of_phase rfl hwithin (by simp [hphases]))
  | error e =>
    exact .inr (Part.fails_empty_handed rfl (hr e rfl) hwithin (by simp [hphases]))

section

variable (k : Kernel) (maps : KernelMaps)

/-- `checkPrivilege` acquires nothing, whether it succeeds or fails. -/
private theorem checkPrivilege_spec :
    (checkPrivilege k maps).Succeeds .checkPrivilege .checkPrivilege () [] ∨
      (checkPrivilege k maps).Fails .checkPrivilege .checkPrivilege [] [] := by
  refine check_spec maps rfl rfl rfl fun e he => ?_
  split at he
  · simp at he
  · exact Except.error.inj he ▸ rfl

/-- `liftMemoryLimit` acquires nothing, whether it succeeds or fails. -/
private theorem liftMemoryLimit_spec :
    (liftMemoryLimit k maps).Succeeds .liftMemoryLimit .liftMemoryLimit () [] ∨
      (liftMemoryLimit k maps).Fails .liftMemoryLimit .liftMemoryLimit [] [] := by
  exact check_spec maps rfl rfl rfl fun e he => SetupError.eq_of_refused he ▸ rfl

/-- `arm` acquires nothing, whether it succeeds or fails. -/
private theorem arm_spec :
    (arm k maps).Succeeds .arm .arm () [] ∨ (arm k maps).Fails .arm .arm [] [] := by
  exact check_spec maps rfl rfl rfl fun e he => SetupError.eq_of_refused he ▸ rfl

end

/-- A collection that has been loaded is held, under the path of its object file. -/
private theorem load_spec (h : Host) (d : Disk) (path : String) (maps : KernelMaps) :
    (∃ c, c.path = path ∧ (load h d path maps).Succeeds .load .load c [.collection path]) ∨
      (load h d path maps).Fails .load .load [] [] := by
  -- The collection is acquired just if `Collection.load` gives one.
  rcases hload : Collection.load h.kernel h.parseObject d path with ⟨lines, e | ⟨c, new⟩⟩
  · have heq : load h d path maps =
        ⟨.readObject path :: Effect.mainLines lines, maps, .error e⟩ := by
      simp [load, hload]
    have hphase : e.phase = .load := Collection.phase_of_load_error (congrArg Prod.snd hload)
    rw [heq]
    refine .inr (Part.fails_empty_handed rfl hphase ⟨?_, ?_, ?_⟩ ?_) <;> simp
  · have heq : load h d path maps =
        ⟨.readObject path :: (Effect.mainLines lines ++ [.acquire .load (.collection path)]), new,
          .ok c⟩ := by
      simp [load, hload]
    have hpath : c.path = path := Collection.path_of_load (congrArg Prod.snd hload)
    rw [heq]
    refine .inl ⟨c, hpath, Part.succeeds_of_phase rfl ⟨?_, ?_, ?_⟩ ?_⟩ <;> simp

/-- Setting the mode acquires nothing. -/
private theorem setMode_spec (mode : Mode) (collection : Collection) (maps : KernelMaps) :
    (setMode mode collection maps).Succeeds .setMode .setMode () [] ∨
      (setMode mode collection maps).Fails .setMode .setMode [] [] := by
  -- The map is not there, its one write is refused, or the mode is set.
  cases hlend : collection.lend maps Mode.mapName with
  | error e =>
    have heq : setMode mode collection maps = ⟨[.setMode mode], maps, .error e⟩ := by
      simp [setMode, hlend]
    have hphase : e.phase = .setMode := Collection.lend_error hlend ▸ rfl
    rw [heq]
    refine .inr (Part.fails_empty_handed rfl hphase ⟨?_, ?_, ?_⟩ ?_) <;> simp
  | ok m =>
    cases hwrite : mode.write m with
    | error e =>
      have heq : setMode mode collection maps =
          ⟨[.setMode mode], maps, .error (.map Mode.mapName e)⟩ := by
        simp [setMode, hlend, hwrite]
      rw [heq]
      refine .inr (Part.fails_empty_handed rfl rfl ⟨?_, ?_, ?_⟩ ?_) <;> simp
    | ok m' =>
      have heq : setMode mode collection maps =
          ⟨[.setMode mode, .log .main mode.setLine], maps.insert m'.spec.name m', .ok ()⟩ := by
        simp [setMode, hlend, hwrite]
      rw [heq]
      refine .inl (Part.succeeds_of_phase rfl ⟨?_, ?_, ?_⟩ ?_) <;> simp

/-- A stream that has been opened is held. -/
private theorem openStream_spec (k : Kernel) (phase : Phase) (name : String)
    (hname : .ofMap name = phase)
    (bufferBytes : UInt64) (collection : Collection) (maps : KernelMaps) :
    (∃ x, x.2.path = collection.path ∧
      (openStream k phase name bufferBytes collection maps).Succeeds phase phase x
        [.stream name]) ∨
      (openStream k phase name bufferBytes collection maps).Fails phase phase [] [] := by
  -- The map is not there, its ring buffers are refused, or the stream is acquired.
  rcases htake : collection.take maps name with e | ⟨m, rest⟩
  · have heq : openStream k phase name bufferBytes collection maps =
        ⟨[.openStream phase name], maps, .error e⟩ := by
      simp [openStream, htake]
    have hphase : e.phase = phase := Collection.take_error htake ▸ hname
    rw [heq]
    refine .inr (Part.fails_empty_handed rfl hphase ⟨?_, ?_, ?_⟩ ?_) <;> simp
  · rcases hfeed : Perf.openFeed k name m bufferBytes with ⟨lines, e | feed⟩
    · have heq : openStream k phase name bufferBytes collection maps =
          ⟨.openStream phase name :: Effect.mainLines lines, maps, .error (.stream name e)⟩ := by
        simp [openStream, htake, hfeed]
      have hphase : (SetupError.stream name e).phase = phase := hname
      rw [heq]
      refine .inr (Part.fails_empty_handed rfl hphase ⟨?_, ?_, ?_⟩ ?_) <;> simp
    · have heq : openStream k phase name bufferBytes collection maps =
          ⟨.openStream phase name ::
            (Effect.mainLines lines ++ [.acquire phase (.stream name)]), maps,
            .ok (feed, rest)⟩ := by
        simp [openStream, htake, hfeed]
      rw [heq]
      refine .inl ⟨_, Collection.path_of_take htake, Part.succeeds_of_phase rfl ⟨?_, ?_, ?_⟩ ?_⟩ <;>
        simp

/-- If the map of allowed addresses has been taken out and cannot be used or filled, then it is
given back at once. -/
private theorem fillAllow_spec (suffixes : List String) (seeds : List Ipv4)
    (collection : Collection)
    (maps : KernelMaps) :
    (∃ x, x.1.path = collection.path ∧
      (fillAllow suffixes seeds collection maps).Succeeds .writeSeeds .writeSeeds x
        [.map AllowManager.mapName]) ∨
    ((fillAllow suffixes seeds collection maps).Fails .writeSeeds .writeSeeds [] []) ∨
    (fillAllow suffixes seeds collection maps).Fails .writeSeeds .writeSeeds
      [.map AllowManager.mapName] [.map AllowManager.mapName] := by
  rcases htake : collection.take maps AllowManager.mapName with e | ⟨m, rest⟩
  · have heq : fillAllow suffixes seeds collection maps = ⟨[.takeAllow], maps, .error e⟩ := by
      simp [fillAllow, htake]
    have hphase : e.phase = .writeSeeds := Collection.take_error htake ▸ rfl
    rw [heq]
    refine .inr (.inl (Part.fails_empty_handed rfl hphase ⟨?_, ?_, ?_⟩ ?_)) <;> simp
  have hpath : rest.path = collection.path := Collection.path_of_take htake
  -- From here on every failure gives the map back.
  have hcleanup : Cleanup [.map AllowManager.mapName] [releaseAllow] := ⟨rfl, rfl⟩
  cases hmap : AllowMap.ofMap m with
  | error e =>
    have heq : fillAllow suffixes seeds collection maps =
        ⟨[.takeAllow, .acquire .writeSeeds (.map AllowManager.mapName)] ++ [releaseAllow], maps,
          .error (.map AllowManager.mapName e)⟩ := by
      simp [fillAllow, htake, hmap, releasing]
    rw [heq]
    refine .inr (.inr (Part.fails_of_phase rfl rfl rfl ⟨?_, ?_, ?_⟩ ?_ hcleanup)) <;> simp
  | ok store =>
    let seeding := ({ store, suffixes } : AllowManager AllowMap).seed seeds
    let tried := (seeds.take (seeding.count + 1)).map Effect.writeSeed
    let work := Effect.takeAllow :: .acquire .writeSeeds (.map AllowManager.mapName) ::
      (tried ++ Effect.mainLines seeding.logs)
    have hwork : Within .writeSeeds [.map AllowManager.mapName] [] work := by
      have htake : Within .writeSeeds [.map AllowManager.mapName] []
        [.takeAllow, .acquire .writeSeeds (.map AllowManager.mapName)] := ⟨by simp, rfl, rfl⟩
      have htried : Within .writeSeeds [] [] tried :=
        .map (fun _ => rfl) (fun _ => rfl) (fun _ => rfl) _
      exact htake.append (htried.append (.mainLines seeding.logs))
    cases hresult : seeding.result with
    | error e =>
      have hphase : e.phase = .writeSeeds := AllowManager.Seeding.phase_of_error hresult
      have heq : fillAllow suffixes seeds collection maps = ⟨work ++ [releaseAllow],
          maps.insert seeding.manager.store.map.spec.name seeding.manager.store.map,
          .error e⟩ := by
        simp [fillAllow, htake, hmap, releasing, seeding, hresult, work, tried]
      rw [heq]
      exact .inr (.inr (Part.fails_of_phase rfl hphase rfl hwork (by simp [work]) hcleanup))
    | ok seeded =>
      have heq : fillAllow suffixes seeds collection maps = ⟨work,
          maps.insert seeding.manager.store.map.spec.name seeding.manager.store.map,
          .ok (rest, seeding.manager, seeded)⟩ := by
        simp [fillAllow, htake, hmap, releasing, seeding, hresult, work, tried]
      rw [heq]
      exact .inl ⟨_, hpath, Part.succeeds_of_phase rfl hwork (by simp [work])⟩

/-! ## The whole -/

/-- What has been acquired, and in which order it is given up, by the phase in which a run ends. -/
inductive Teardown (path : String) (links : List Attachment) :
    Phase → List Resource → List Resource → Prop
  /-- Nothing is held before the object file has been loaded. -/
  | unloaded {p : Phase} (h : p ≤ .load) : Teardown path links p [] []
  | loaded {p : Phase} (h : .attach ≤ p) (h' : p ≤ .writeSeeds) :
    Teardown path links p (.collection path :: links.map .link)
      (links.map .link ++ [.collection path])
  /-- The map of allowed addresses goes first if it cannot be filled. -/
  | seeding :
    Teardown path links .writeSeeds
      (.collection path :: links.map .link ++ [.map AllowManager.mapName])
      (.map AllowManager.mapName :: links.map .link ++ [.collection path])
  | opening {p : Phase} (h : .openOpened ≤ p) (h' : p ≤ .arm) {streams : List String}
    (hstreams : streams <+: [openedName, closedName]) :
    Teardown path links p
      (.collection path :: links.map .link ++ .map AllowManager.mapName :: streams.map .stream)
      (streams.reverse.map .stream ++ links.map .link ++
        [.map AllowManager.mapName, .collection path])
  /-- Whoever is first done with its stream gives it up first. -/
  | finished {streams : List Resource}
    (hstreams : streams.Perm [.stream openedName, .stream closedName]) :
    Teardown path links .finish
      (.collection path :: links.map .link ++
        [.map AllowManager.mapName, .stream openedName, .stream closedName])
      (streams ++ links.map .link ++ [.map AllowManager.mapName, .collection path])

section

variable (c : Config) (h : Host) (d : Disk) (mode : Mode) (seeds : List Ipv4) (maps : KernelMaps)

/-- The maps are written, or all that is left in the end is what was held before. -/
private theorem fill_spec (collection : Collection) (links : List Attachment) :
    (∃ x : Context, x.attachments = links ∧ x.collection.path = collection.path ∧
      (fill c mode seeds collection links maps).Succeeds .setMode .writeSeeds x
        [.map AllowManager.mapName]) ∨
    (∃ last, .setMode ≤ last ∧ last ≤ .writeSeeds ∧
      (fill c mode seeds collection links maps).Fails .setMode last [] []) ∨
    (fill c mode seeds collection links maps).Fails .setMode .writeSeeds
      [.map AllowManager.mapName] [.map AllowManager.mapName] := by
  unfold fill
  rcases setMode_spec mode collection maps with hmode | hmode
  -- Whatever fails before the allow map is taken leaves nothing to release.
  case inr => exact .inr (.inl ⟨_, by decide, by decide, Setup.bind_fails_left hmode⟩)
  rcases fillAllow_spec c.suffixes seeds collection _ with ⟨x, hpath, hfill⟩ | hfill | hfill
  case inl =>
    exact .inl ⟨_, rfl, hpath,
      Setup.bind_succeeds hmode (Setup.bind_pure_succeeds hfill rfl) rfl⟩
  case inr.inl =>
    exact .inr (.inl ⟨_, by decide, by decide,
      Setup.bind_fails hmode (Setup.bind_fails_left hfill) rfl⟩)
  case inr.inr =>
    exact .inr (.inr (Setup.bind_fails hmode (Setup.bind_fails_left hfill) rfl))

/-- With the collection around it, the end of attaching and writing is one of the list. -/
private theorem equip_spec (collection : Collection) :
    ∃ links : List Attachment, links.Nodup ∧
      ((∃ x : Context, x.attachments = links ∧ x.collection.path = collection.path ∧
        (equip c h d mode seeds collection maps).Succeeds .attach .writeSeeds x
          (links.map .link ++ [.map AllowManager.mapName])) ∨
      ∃ last gained given,
        (equip c h d mode seeds collection maps).Fails .attach last gained given ∧
        ∀ path, Teardown path links last (.collection path :: gained)
          (given ++ [.collection path])) := by
  unfold equip
  obtain ⟨links, hnodup, hattach | hattach⟩ := attach_spec h.kernel d c.overrides collection maps
  -- `attach` has released its own links.
  case inr =>
    exact ⟨links, hnodup, .inr ⟨_, _, _, Setup.bind_fails_left hattach,
      fun _ => .loaded (by decide) (by decide)⟩⟩
  have hlinks := Cleanup.attachments links
  refine ⟨links, hnodup, ?_⟩
  rcases fill_spec c mode seeds (attach h.kernel d c.overrides collection maps).maps collection
    links with ⟨x, hx, hpath, hfill⟩ | ⟨last, hle, hge, hfill⟩ | hfill
  case inl =>
    exact .inl ⟨x, hx, hpath, Setup.bind_succeeds hattach (Setup.releasing_succeeds hfill) rfl⟩
  -- No map has been taken from the collection: the links go, and then the collection.
  case inr.inl =>
    refine .inr ⟨_, _, _, Setup.bind_fails hattach (Setup.releasing_fails hfill hlinks) rfl,
      fun path => ?_⟩
    rw [List.append_nil]
    exact .loaded (Nat.le_trans (by decide) hle) hge
  -- A refused seed write: the map has gone before the links.
  case inr.inr =>
    exact .inr ⟨_, _, _, Setup.bind_fails hattach (Setup.releasing_fails hfill hlinks) rfl,
      fun path => .seeding⟩

/-- Up to the first addresses, everything is acquired or nothing is held any more. -/
theorem context_spec :
    ∃ links : List Attachment, links.Nodup ∧
      ((∃ x : Context, x.attachments = links ∧ x.collection.path = c.artifact ∧
        (context c h d mode seeds maps).Succeeds .checkPrivilege .writeSeeds x
          (.collection c.artifact :: links.map .link ++ [.map AllowManager.mapName])) ∨
      ∃ last gained given,
        (context c h d mode seeds maps).Fails .checkPrivilege last gained given ∧
          Teardown c.artifact links last gained given) := by
  unfold context
  -- The pieces may fail one after the other, and a failure leaves what was held before the piece.
  rcases checkPrivilege_spec h.kernel maps with hprivilege | hprivilege
  case inr =>
    exact ⟨[], .nil, .inr ⟨_, _, _, Setup.bind_fails_left hprivilege, .unloaded (by decide)⟩⟩
  rcases liftMemoryLimit_spec h.kernel _ with hlimit | hlimit
  case inr =>
    exact ⟨[], .nil, .inr ⟨_, _, _, Setup.bind_fails hprivilege (Setup.bind_fails_left hlimit) rfl,
      .unloaded (by decide)⟩⟩
  rcases load_spec h d c.artifact _ with ⟨collection, hpath, hload⟩ | hload
  case inr =>
    exact ⟨[], .nil, .inr ⟨_, _, _, Setup.bind_fails hprivilege
      (Setup.bind_fails hlimit (Setup.bind_fails_left hload) rfl) rfl, .unloaded (by decide)⟩⟩
  have hcollection : Cleanup [.collection c.artifact]
      [Effect.release (.collection c.artifact)] := ⟨rfl, rfl⟩
  obtain ⟨links, hnodup, ⟨x, hx, hxpath, hequip⟩ | ⟨last, gained, given, hequip, hteardown⟩⟩ :=
    equip_spec c h d mode seeds _ collection
  case inl =>
    refine ⟨links, hnodup, .inl ⟨x, hx, hxpath.trans hpath, ?_⟩⟩
    change Part.Succeeds _ _ _ _
      ([] ++ ([] ++ ([.collection c.artifact] ++ (links.map .link ++ _))))
    exact Setup.bind_succeeds hprivilege (Setup.bind_succeeds hlimit
      (Setup.bind_succeeds hload (Setup.releasing_succeeds hequip) rfl) rfl) rfl
  case inr =>
    exact ⟨links, hnodup, .inr ⟨last, _, _, Setup.bind_fails hprivilege
      (Setup.bind_fails hlimit
        (Setup.bind_fails hload (Setup.releasing_fails hequip hcollection) rfl) rfl) rfl,
      hteardown c.artifact⟩⟩

/-- All that is held before the streams is given up, the attachments first. -/
private theorem Context.cleanup_releases (x : Context) :
    Cleanup (x.attachments.map .link ++
      [.map AllowManager.mapName, .collection x.collection.path]) x.releases :=
  .append (.attachments x.attachments) ⟨rfl, rfl⟩

/-- Both streams are opened, or all is given up, the later stream first. -/
private theorem streams_spec (k : Kernel) (x : Context) :
    (∃ held : Held, held.context.attachments = x.attachments ∧
      held.context.collection.path = x.collection.path ∧
      (streams c k x maps).Succeeds .openOpened .arm held
        [.stream openedName, .stream closedName]) ∨
    ∃ (last : Phase) (opened : List String), .openOpened ≤ last ∧ last ≤ .arm ∧
      opened <+: [openedName, closedName] ∧
      (streams c k x maps).Fails .openOpened last (opened.map .stream)
        (opened.reverse.map .stream ++ (x.attachments.map .link ++
          [.map AllowManager.mapName, .collection x.collection.path])) := by
  unfold streams
  -- `change` writes out what the pieces gain and give up one by one, as `bind_fails` has it.
  have hx := x.cleanup_releases
  have hopenedCleanup : Cleanup [.stream openedName] [.release (.stream openedName)] := ⟨rfl, rfl⟩
  have hclosedCleanup : Cleanup [.stream closedName] [.release (.stream closedName)] := ⟨rfl, rfl⟩
  rcases openStream_spec k .openOpened openedName rfl c.bufferBytes x.collection maps with
    ⟨o, hopath, hopened⟩ | hopened
  case inr =>
    exact .inr ⟨.openOpened, [], by decide, by decide, List.nil_prefix,
      Setup.releasing_fails (Setup.bind_fails_left hopened) hx⟩
  rcases openStream_spec k .openClosed closedName rfl c.bufferBytes o.2 _ with
    ⟨o', hcpath, hclosed⟩ | hclosed
  case inr =>
    refine .inr ⟨.openClosed, [openedName], by decide, by decide, by decide, ?_⟩
    change Part.Fails _ _ _ ([.stream openedName] ++ []) (([] ++ [.stream openedName]) ++ _)
    exact Setup.releasing_fails (Setup.bind_fails hopened (Setup.releasing_fails
      (Setup.bind_fails_left hclosed) hopenedCleanup) rfl) hx
  rcases arm_spec k _ with harm | harm
  case inr =>
    refine .inr ⟨.arm, [openedName, closedName], by decide, by decide, by decide, ?_⟩
    change Part.Fails _ _ _ ([.stream openedName] ++ ([.stream closedName] ++ []))
      ((([] ++ [.stream closedName]) ++ [.stream openedName]) ++ _)
    exact Setup.releasing_fails (Setup.bind_fails hopened (Setup.releasing_fails
      (Setup.bind_fails hclosed (Setup.releasing_fails
        (Setup.bind_fails_left harm) hclosedCleanup) rfl) hopenedCleanup) rfl) hx
  case inl =>
    refine .inl ⟨⟨{ x with collection := o'.2 }, o.1, o'.1⟩, rfl, hcpath.trans hopath, ?_⟩
    change Part.Succeeds _ _ _ _ ([.stream openedName] ++ ([.stream closedName] ++ []))
    exact Setup.releasing_succeeds (Setup.bind_succeeds hopened (Setup.releasing_succeeds
      (Setup.bind_succeeds hclosed (Setup.releasing_succeeds
        (Setup.bind_pure_succeeds harm rfl)) rfl)) rfl)

/-- A run is set up, and then it holds all of its resources, or all is given up again. -/
theorem setUp_spec :
    ∃ links : List Attachment, links.Nodup ∧
      ((∃ held : Held, held.context.attachments = links ∧
        held.context.collection.path = c.artifact ∧
        (setUp c h d mode seeds maps).Succeeds .checkPrivilege .arm held
          (.collection c.artifact :: links.map .link ++
            [.map AllowManager.mapName, .stream openedName, .stream closedName])) ∨
      ∃ last gained given, (setUp c h d mode seeds maps).Fails .checkPrivilege last gained given ∧
        Teardown c.artifact links last gained given) := by
  unfold setUp
  -- Before the streams are opened, `context` has made the links and the allow map.
  obtain ⟨links, hnodup, ⟨x, hx, hpath, hcontext⟩ | ⟨last, gained, given, hcontext, hteardown⟩⟩ :=
    context_spec c h d mode seeds maps
  case inr =>
    exact ⟨links, hnodup, .inr ⟨last, gained, given, Setup.bind_fails_left hcontext, hteardown⟩⟩
  refine ⟨links, hnodup, ?_⟩
  -- The streams release what they opened themselves; what the context held goes after them.
  rcases streams_spec c (context c h d mode seeds maps).maps h.kernel x with
    ⟨held, hheld, hheldpath, hstreams⟩ | ⟨last, opened, hle, hge, hopened, hstreams⟩
  case inl =>
    refine .inl ⟨held, hheld.trans hx, hheldpath.trans hpath, ?_⟩
    simpa using Setup.bind_succeeds hcontext hstreams rfl
  case inr =>
    rw [hx, hpath] at hstreams
    refine .inr ⟨last, _, _, Setup.bind_fails hcontext hstreams rfl, ?_⟩
    have hteardown : Teardown c.artifact links last _ _ := .opening hle hge hopened
    simpa using hteardown

end

end Engine

end EgressControl
