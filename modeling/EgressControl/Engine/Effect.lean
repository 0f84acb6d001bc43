import EgressControl.Address.Ipv4
import EgressControl.Attachment
import EgressControl.Log
import EgressControl.Mode.Basic
import EgressControl.Stream

/-! # What a run does

A run is described by the list of its effects in the order in which they happen.  Every effect
but a line of the log and the release of a resource belongs to a `Phase` of the run. -/

namespace EgressControl

/-- The name of the map that carries the samples of opened connections. -/
def openedName : String := "ipv4_events"

/-- The name of the map that carries the samples of closed connections. -/
def closedName : String := "ipv4_closed_events"

namespace Engine

/-- What a run holds for a time. -/
inductive Resource where
  /-- The collection of an object file. -/
  | collection (path : String)
  /-- A map that was taken out of the collection. -/
  | map (name : String)
  /-- A program bound to its hook. -/
  | link (attachment : Attachment)
  /-- A stream of samples. -/
  | stream (name : String)
  deriving DecidableEq

/-- Who writes into the log: the run itself, the tasks that read the perf buffers, or the task
that reads the stream of closed connections. -/
inductive Worker where
  | main
  | pump
  | drainer
  deriving DecidableEq, Repr

/-- The phases of a run, in their order. -/
inductive Phase where
  | checkMode
  | createReport
  | collectSeeds
  | checkPrivilege
  | liftMemoryLimit
  | load
  | attach
  | setMode
  | writeSeeds
  | openOpened
  | openClosed
  | arm
  | consume
  | finish
  deriving DecidableEq, Repr

/-- What a run does. -/
inductive Effect where
  | log (worker : Worker) (line : Log.Line)
  /-- A resource is given up. -/
  | release (r : Resource)
  /-- A resource is held from here on. -/
  | acquire (phase : Phase) (r : Resource)
  | checkMode (text : String)
  /-- The log of connections is created, or at least that is tried. -/
  | createReport (path : String)
  | readNameservers (path : String)
  | lookUp (host : String)
  | checkPrivilege
  | liftMemoryLimit
  /-- The object file is read. -/
  | readObject (path : String)
  /-- A program is attached, or at least that is tried. -/
  | attach (a : Attachment)
  | setMode (mode : Mode)
  /-- The map of allowed addresses is taken out of the collection, or at least that is tried. -/
  | takeAllow
  | writeSeed (x : Ipv4)
  | openStream (phase : Phase) (name : String)
  | arm
  | consume (x : Sample)
  | print (text : String)
  | writeSummary (path : String)
  deriving DecidableEq

namespace Effect

/-- The phase to which an effect belongs. -/
def phase? : Effect → Option Phase
  | log .. | release .. => none
  | acquire phase _ | openStream phase _ => some phase
  | checkMode _ => some .checkMode
  | createReport _ => some .createReport
  | readNameservers _ | lookUp _ => some .collectSeeds
  | checkPrivilege => some .checkPrivilege
  | liftMemoryLimit => some .liftMemoryLimit
  | readObject _ => some .load
  | attach _ => some .attach
  | setMode _ => some .setMode
  | takeAllow | writeSeed _ => some .writeSeeds
  | arm => some .arm
  | consume _ => some .consume
  | print _ | writeSummary _ => some .finish

/-- The lines of one worker. -/
def linesOf (w : Worker) (es : List Effect) : List Log.Line :=
  es.filterMap fun
    | log v line => if v = w then some line else none
    | _ => none

/-- The hosts that are looked up. -/
def lookups (es : List Effect) : List String :=
  es.filterMap fun
    | lookUp host => some host
    | _ => none

/-- What is printed. -/
def printed (es : List Effect) : String :=
  String.join (es.filterMap fun
    | print text => some text
    | _ => none)

/-- By how many an effect changes the number of resources that are held. -/
def change : Effect → Int
  | acquire .. => 1
  | release _ => -1
  | _ => 0

/-- The number of resources that are held after some effects, if none was held before. -/
def held (es : List Effect) : Int := es.foldr (fun e n => e.change + n) 0

/-- Lines of the run itself. -/
def mainLines (lines : List Log.Line) : List Effect := lines.map (log .main)

/-- An attachment is given up. -/
def releaseAttachment (a : Attachment) : List Effect :=
  [log .main a.releaseLine, release (.link a)]

/-- What happens while programs are attached. -/
def ofAttachmentEvent : Attachment.Event → List Effect
  | .log line => [log .main line]
  | .attempt a => [attach a]
  | .acquire a => [acquire .attach (.link a)]
  | .release a => releaseAttachment a

end Effect

end Engine

end EgressControl
