import EgressControl.Proofs.Engine.Composition

/-!
# Attaching programs leaves none of them behind

`attachEach` acquires the attachments that it makes, in their order, and gives nothing up
(`attachEach_sound`).  No attachment is made twice, because no two programs have one name
(`nodup_made`).  `attach_spec` is the piece of setting up that attaches all programs: if one of them
cannot be attached, what was made until then is given back.
-/

namespace EgressControl.Attachment

open Engine (Phase Resource Effect)
open Engine.Effect (Within phases)

variable {π : Type}

/-- The effects of attaching programs. -/
def Batch.effects (b : Batch π) : List Effect := b.events.flatMap Effect.ofAttachmentEvent

/-- Attaching acquires what is made.  If it ends with a failure, that has been tried. -/
structure Batch.Sound (b : Batch π) : Prop where
  within : Within .attach (b.made.map .link) [] b.effects
  tried : b.failure.isSome → phases b.effects ≠ []

/-- `attachEach` acquires what it makes, and has tried to if it fails (`Sound`). -/
theorem attachEach_sound (binder : HookBinder π) (overrides : Table String String)
    (programs : List (String × π)) : (attachEach binder overrides programs).Sound := by
  fun_induction attachEach binder overrides programs with
  | case1 => exact ⟨.nil, by simp⟩
  | case2 name p rest hkind b ih =>
    -- A program of an unknown kind leaves a line and nothing else.
    have hskip : Within .attach [] [] [.log .main (skipLine name)] := .log .main [skipLine name]
    exact ⟨hskip.append ih.within, ih.tried⟩
  | case3 name p rest kind hkind a e p' hattach =>
    exact ⟨⟨by simp [Batch.effects, Effect.ofAttachmentEvent], rfl, rfl⟩,
      by simp [Batch.effects, Effect.ofAttachmentEvent]⟩
  | case4 name p rest kind hkind a p' hattach b ih =>
    have hmade : Within .attach [.link a] []
        [.log .main (linkLine kind a), .attach a, .acquire .attach (.link a)] :=
      ⟨by simp, rfl, rfl⟩
    exact ⟨hmade.append ih.within, by simp [Batch.effects, Effect.ofAttachmentEvent]⟩

/-- Attachments bear the names of their programs. -/
private theorem program_made_sublist (binder : HookBinder π) (overrides : Table String String)
    (programs : List (String × π)) :
    ((attachEach binder overrides programs).made.map (·.program)).Sublist
      (programs.map (·.1)) := by
  fun_induction attachEach binder overrides programs with
  | case1 => exact .slnil
  | case2 name p rest hkind b ih => exact .cons _ ih
  | case3 => exact List.nil_sublist _
  | case4 name p rest kind hkind a p' hattach b ih => exact .cons_cons _ ih

/-- No attachment is made twice if no two programs have one name. -/
theorem nodup_made (binder : HookBinder π) (overrides : Table String String)
    {programs : List (String × π)} (h : (programs.map (·.1)).Nodup) :
    (attachEach binder overrides programs).made.Nodup :=
  have hprograms := (program_made_sublist binder overrides programs).nodup h
  List.Pairwise.of_map _ (fun _ _ hne heq => hne (congrArg _ heq)) hprograms

end EgressControl.Attachment

namespace EgressControl.Engine

open Effect (Within)

/-- The phase `attach` has the effects and the result of `attachAll`, and leaves the maps as they
are. -/
private theorem attach_apply (k : Kernel) (d : Disk) (overrides : Table String String)
    (collection : Collection) (maps : KernelMaps) :
    let b := Attachment.attachAll (Program.binder k d) overrides collection.programs.entries
    attach k d overrides collection maps = ⟨b.effects, maps, b.result.mapError .attach⟩ := by
  simp [attach, Attachment.Batch.effects]

/-- Either all programs of known kinds are attached, or one of them cannot be, and then those
before it are given back. -/
theorem attach_spec (k : Kernel) (d : Disk) (overrides : Table String String)
    (collection : Collection) (maps : KernelMaps) :
    ∃ links : List Attachment, links.Nodup ∧
      ((attach k d overrides collection maps).Succeeds .attach .attach links (links.map .link) ∨
       (attach k d overrides collection maps).Fails .attach .attach (links.map .link)
          (links.map .link)) := by
  let b := Attachment.attachEach (Program.binder k d) overrides collection.programs.entries
  have hb : b.Sound := Attachment.attachEach_sound _ _ _
  refine ⟨b.made, Attachment.nodup_made _ _ collection.programs.nodup_keys, ?_⟩
  rw [attach_apply]
  cases hfailure : b.failure with
  | none =>
    -- Every program bound: the batch gains the line that counts the links, which are all
    -- kept.
    have hall : Attachment.attachAll (Program.binder k d) overrides collection.programs.entries =
        { b with events := b.events ++ [.log (Attachment.countLine b.made.length)] } := by
      simp only [Attachment.attachAll, b, hfailure]
    have heffects : Attachment.Batch.effects
        { b with events := b.events ++ [.log (Attachment.countLine b.made.length)] } =
          b.effects ++ Effect.mainLines [Attachment.countLine b.made.length] := by
      simp [Attachment.Batch.effects, Effect.ofAttachmentEvent, Effect.mainLines]
    have hresult : Except.mapError SetupError.attach (Attachment.Batch.result
        { b with events := b.events ++ [.log (Attachment.countLine b.made.length)] }) =
          .ok b.made := by
      simp [Attachment.Batch.result, hfailure]
    left
    rw [hall, heffects]
    refine Part.succeeds_of_phase hresult ?_ (by simp [Phase.mayIdle])
    simpa using hb.within.append (.mainLines [Attachment.countLine b.made.length])
  | some e =>
    -- One did not bind: the batch gains the releases of the links made so far.
    have hall : Attachment.attachAll (Program.binder k d) overrides collection.programs.entries =
        { b with events := b.events ++ b.made.map .release } := by
      simp only [Attachment.attachAll, b, hfailure]
    have heffects : Attachment.Batch.effects { b with events := b.events ++ b.made.map .release } =
        b.effects ++ b.made.flatMap Effect.releaseAttachment := by
      simp [Attachment.Batch.effects, Effect.ofAttachmentEvent, List.flatMap_map]
    right
    rw [hall, heffects]
    have hresult : Except.mapError SetupError.attach (Attachment.Batch.result
        { b with events := b.events ++ b.made.map .release }) = .error (.attach e) := by
      simp [Attachment.Batch.result, hfailure]
    exact Part.fails_of_phase hresult rfl rfl hb.within (hb.tried (by rw [hfailure]; rfl))
      (.attachments b.made)

end EgressControl.Engine
