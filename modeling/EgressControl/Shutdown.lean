import EgressControl.Log
import EgressControl.Stream
import EgressControl.Text.Quoted

/-! # Ending a run

A run goes on until its stream of opened connections is closed.  A coordinator closes it when
its trigger fires, which is when the process gets a signal; it stops too when the stream is closed
by someone else.  In both cases it posts the cause, once.

`Shutdown` is the coordinator with all that it deals with.  Its transitions are what others do
(`fire`, `close`, `wait`, …) and `turn`, by which the coordinator goes on; they may come in any
order.  Once it has seen its cause the coordinator takes two more turns: it closes the stream, and
then it posts the cause.  Others may read the stream or call `wait` in between. -/

namespace EgressControl

/-- Why a coordinator stopped. -/
inductive ShutdownCause where
  | signal (name : String)
  /-- The stream was closed by something other than a signal. -/
  | readerClosed
  deriving DecidableEq, Repr

/-- A cause as messages show it. -/
def ShutdownCause.text : ShutdownCause → String
  | signal name => "Signal(" ++ Text.quoted name ++ ")"
  | readerClosed => "ReaderClosed"

namespace Shutdown

/-- What has become of the trigger. -/
inductive Trigger where
  /-- It may still fire. -/
  | armed
  | fired (name : String)
  | panicked
  /-- It will never fire. -/
  | dropped
  deriving DecidableEq, Repr

/-- What has become of the coordinator's task. -/
inductive Task where
  /-- It waits for the trigger and for the stream to be closed. -/
  | watching
  /-- It has seen the cause and is about to close the stream. -/
  | closing (cause : ShutdownCause)
  /-- It has closed the stream and is about to post the cause. -/
  | posting (cause : ShutdownCause)
  /-- It has posted the cause. -/
  | finished
  /-- It panicked or was stopped, and has posted nothing. -/
  | dead
  deriving DecidableEq, Repr

/-- Whether the task has come to its end. -/
def Task.ended : Task → Bool
  | finished | dead => true
  | watching | closing _ | posting _ => false

/-- What has become of the handle of a coordinator, which is used up by `wait` or by `disarm`. -/
inductive Handle where
  | held
  /-- `wait` has been called and has not been answered yet. -/
  | waiting
  | spent
  deriving DecidableEq, Repr

/-- At which of two things that have both happened the coordinator looks first. -/
inductive Glance where
  | trigger
  | stream
  deriving DecidableEq, Repr

end Shutdown

/-- A coordinator and what it deals with. -/
structure Shutdown where
  stream : Stream
  trigger : Shutdown.Trigger := .armed
  task : Shutdown.Task := .watching
  /-- The cause that has been posted. -/
  posted : Option ShutdownCause := none
  handle : Shutdown.Handle := .held

namespace Shutdown

/-- A coordinator for a stream. -/
def arm (stream : Stream) : Shutdown := { stream }

/-- The line on a signal. -/
def receivedLine (name : String) : Log.Line :=
  .info ("received " ++ name ++ ", shutting down...")

/-- What the coordinator does about its trigger, if there is anything to do. -/
def pollTrigger (s : Shutdown) : Option (Shutdown × List Log.Line) :=
  match s.trigger with
  | .fired name => some ({ s with task := .closing (.signal name) }, [receivedLine name])
  | .panicked => some ({ s with task := .dead }, [])
  | .armed | .dropped => none

/-- What the coordinator does about its stream, if there is anything to do. -/
def pollStream (s : Shutdown) : Option (Shutdown × List Log.Line) :=
  if s.stream.closed then some ({ s with task := .closing .readerClosed }, []) else none

/-- The coordinator does one thing, if it can: it sees its cause, closes the stream or posts the
cause.  `first` matters only if the trigger has ended and the stream is closed. -/
def turn (s : Shutdown) (first : Glance) : Shutdown × List Log.Line :=
  match s.task with
  | .watching =>
    match first with
    | .trigger => (s.pollTrigger.orElse fun _ => s.pollStream).getD (s, [])
    | .stream => (s.pollStream.orElse fun _ => s.pollTrigger).getD (s, [])
  | .closing cause => ({ s with stream := s.stream.close, task := .posting cause }, [])
  | .posting cause => ({ s with posted := some cause, task := .finished }, [])
  | .finished | .dead => (s, [])

/-- The coordinator goes on as far as it can, and nobody else does anything meanwhile. -/
def poll (s : Shutdown) (first : Glance) : Shutdown × List Log.Line :=
  let (s, seen) := s.turn first
  let (s, closed) := s.turn first
  let (s, posted) := s.turn first
  (s, seen ++ closed ++ posted)

/-- The trigger comes to an end.  The answer is whether the coordinator still waited for it, or
nothing if the trigger had come to an end before. -/
def endTrigger (s : Shutdown) (t : Trigger) : Option Bool × Shutdown :=
  if s.trigger = .armed then (some (s.task = .watching), { s with trigger := t }) else (none, s)

/-- The trigger fires. -/
def fire (s : Shutdown) (name : String) : Option Bool × Shutdown := s.endTrigger (.fired name)

/-- The trigger panics. -/
def panic (s : Shutdown) : Option Bool × Shutdown := s.endTrigger .panicked

/-- The trigger goes away without firing. -/
def dropTrigger (s : Shutdown) : Option Bool × Shutdown := s.endTrigger .dropped

/-- Someone closes the stream. -/
def close (s : Shutdown) : Shutdown := { s with stream := s.stream.close }

/-- The coordinator is stopped, if it is still `watching`; the answer is whether the handle was
`held`.  A coordinator that has seen its cause does not stop any more before it has posted. -/
def disarm (s : Shutdown) : Bool × Shutdown :=
  match s.handle with
  | .held =>
    (true, { s with handle := .spent, task := if s.task = .watching then .dead else s.task })
  | .waiting | .spent => (false, s)

/-- What `wait` answers. -/
inductive Answer where
  | pending
  | cause (c : ShutdownCause)
  /-- The handle has been used up. -/
  | noHandle
  deriving DecidableEq, Repr

/-- The line on a coordinator that posted nothing. -/
def lostLine : Log.Line := .warn "shutdown coordinator exited without completing"

/-- Answers with the cause once it has been posted, or with `readerClosed` and a warning if the
coordinator is `dead`. -/
def wait (s : Shutdown) : Answer × Shutdown × List Log.Line :=
  match s.handle with
  | .spent => (.noHandle, s, [])
  | .held | .waiting =>
    match s.posted with
    -- What has been posted is taken even if the task has gone since.
    | some c => (.cause c, { s with handle := .spent }, [])
    | none =>
      match s.task with
      | .dead => (.cause .readerClosed, { s with handle := .spent }, [lostLine])
      | .watching | .closing _ | .posting _ | .finished =>
        (.pending, { s with handle := .waiting }, [])

end Shutdown

end EgressControl
