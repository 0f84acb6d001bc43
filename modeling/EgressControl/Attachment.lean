import EgressControl.Error.Setup
import EgressControl.Hook
import EgressControl.Log

/-! # Attaching programs

`attachAll` binds every program of a list to its target, in the order of the list.  A program
of an unknown kind is passed over.  The first failure ends the matter, and then the attachments
made so far are given back, oldest first; what happens is kept as a list of events. -/

namespace EgressControl

/-- How programs of some sort are bound to hooks. -/
structure HookBinder (π : Type) where
  /-- The kind of a program, if it is one that is attached at all. -/
  kind? : π → Option HookKind
  /-- Binds the program with a name to a target.  The second part is the program afterwards. -/
  attach : π → String → AttachTarget → Except AttachError Unit × π

/-- A program that is bound to a target. -/
structure Attachment where
  program : String
  target : AttachTarget
  deriving DecidableEq

namespace Attachment

/-- The line on an attachment that is given back. -/
def releaseLine (a : Attachment) : Log.Line :=
  .debug ("detaching " ++ a.program ++ " from " ++ a.target.text)

/-- What happens while programs are attached. -/
inductive Event where
  | log (line : Log.Line)
  | attempt (attachment : Attachment)
  | acquire (attachment : Attachment)
  | release (attachment : Attachment)
  deriving DecidableEq

/-- How attaching a list of programs went. -/
structure Batch (π : Type) where
  /-- The programs as they are afterwards. -/
  programs : List (String × π)
  events : List Event
  /-- The attachments made, oldest first. -/
  made : List Attachment
  /-- The failure that ended the matter. -/
  failure : Option AttachError

/-- The line on a program of an unknown kind. -/
def skipLine (program : String) : Log.Line := .warn ("ebpf program unrecognized: " ++ program)

/-- The line on a program that is about to be attached. -/
def linkLine (kind : HookKind) (a : Attachment) : Log.Line :=
  .info ("linking " ++ kind.name ++ " [" ++ a.program ++ "] -> " ++ a.target.text)

/-- The line on the end of attaching. -/
def countLine (count : Nat) : Log.Line := .info (count.repr ++ " program(s) attached")

/-- Attaches programs up to the first failure. -/
def attachEach (binder : HookBinder π) (overrides : Table String String) :
    List (String × π) → Batch π
  | [] => ⟨[], [], [], none⟩
  | (name, p) :: rest =>
    match binder.kind? p with
    | none =>
      let b := attachEach binder overrides rest
      ⟨(name, p) :: b.programs, .log (skipLine name) :: b.events, b.made, b.failure⟩
    | some kind =>
      let a : Attachment := ⟨name, .resolve overrides kind name⟩
      match binder.attach p name a.target with
      | (.error e, p) => ⟨(name, p) :: rest, [.log (linkLine kind a), .attempt a], [], some e⟩
      | (.ok (), p) =>
        let b := attachEach binder overrides rest
        ⟨(name, p) :: b.programs,
          .log (linkLine kind a) :: .attempt a :: .acquire a :: b.events, a :: b.made, b.failure⟩

/-- Attaches every program of a known kind, or none in the end. -/
def attachAll (binder : HookBinder π) (overrides : Table String String)
    (programs : List (String × π)) : Batch π :=
  let b := attachEach binder overrides programs
  match b.failure with
  | none => { b with events := b.events ++ [.log (countLine b.made.length)] }
  | some _ => { b with events := b.events ++ b.made.map .release }

/-- The attachments that are held after attaching, or the failure. -/
def Batch.result (b : Batch π) : Except AttachError (List Attachment) :=
  match b.failure with
  | none => .ok b.made
  | some e => .error e

end Attachment

end EgressControl
