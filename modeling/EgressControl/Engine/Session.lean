import EgressControl.Allow.KernelStore
import EgressControl.Consumer
import EgressControl.Engine.Effect
import EgressControl.FanIn
import EgressControl.Shutdown

/-! # The tasks of a run

Once a run is set up, several tasks go on at the same time: the pumps that feed its two streams, the
`Consumer` of opened connections, the task that counts closed connections, and the coordinator that
ends the run.  A `Session` is the state of all of them, with the run itself, which waits for the
coordinator when its consumer has ended.

`Session.step` is one step of one task.  A list of steps is one interleaving, and any list may
occur; `Session.ending` are the steps by which a session comes to its end after any other steps. -/

namespace EgressControl.Engine

/-- The streams of a run. -/
inductive Side where
  /-- The stream of opened connections. -/
  | opened
  /-- The stream of closed connections. -/
  | closed
  deriving DecidableEq, Repr

/-- The tasks of a run. -/
structure Session where
  /-- The coordinator.  Its stream is the one of opened connections. -/
  coordinator : Shutdown
  /-- The pumps that feed the stream of opened connections. -/
  pumps : List Pump
  consumer : Consumer AllowMap
  /-- Whether the consumer has not ended yet. -/
  consuming : Bool := true
  /-- The stream of closed connections, and the pumps that feed it. -/
  closed : FanIn
  /-- The number of samples that have been read from the stream of closed connections. -/
  drained : Nat := 0
  /-- Whether the task that counts closed connections has not ended yet. -/
  draining : Bool := true
  /-- Whether the run has been told the cause of its end. -/
  told : Bool := false

namespace Session

/-- What happens next. -/
inductive Step where
  /-- A pump of a stream does something, its reader reads, or someone closes it. -/
  | stream (side : Side) (x : FanIn.Step)
  /-- The process gets a signal. -/
  | fire (name : String)
  /-- The coordinator does something. -/
  | turn (first : Shutdown.Glance)
  /-- The run looks whether the coordinator has posted the cause. -/
  | wait
  deriving DecidableEq

/-- A stream and the pumps that feed it. -/
def fanIn (s : Session) : Side → FanIn
  | .opened => { stream := s.coordinator.stream, pumps := s.pumps }
  | .closed => s.closed

/-- The session after a step of one of its streams. -/
def onStream (s : Session) (side : Side) (x : FanIn.Step) : Session :=
  let f := ((s.fanIn side).step x).2
  match side with
  | .opened =>
    { s with coordinator := { s.coordinator with stream := f.stream }, pumps := f.pumps }
  | .closed => { s with closed := f }

/-- The consumer reads, and deals with what it gets.  It ends with its stream. -/
def consume (r : Resolver) (s : Session) : Session × List Effect :=
  let after := s.onStream .opened .read
  match s.coordinator.stream.read.1 with
  | .sample raw =>
    let (consumer, lines) := s.consumer.handleBytes r raw
    ({ after with consumer }, .consume (.bytes raw) :: Effect.mainLines lines)
  | .failed (.buffer cpu cause) =>
    let (consumer, lines) := s.consumer.handleFault (.buffer cpu cause)
    ({ after with consumer }, .consume (.fault cpu cause) :: Effect.mainLines lines)
  | .failed .closed =>
    ({ after with consuming := false },
      [.log .main (Consumer.closedLine s.coordinator.stream.name s.consumer.stats)])
  | .pending | .noReader => (after, [])

/-- The task that counts closed connections reads.  It gives its stream up when that has ended. -/
def drain (s : Session) : Session × List Effect :=
  let after := s.onStream .closed .read
  match s.closed.stream.read.1 with
  | .sample raw =>
    ({ after with drained := s.drained + 1 },
      (Drainage.sampleLines raw).map (.log .drainer))
  | .failed (.buffer cpu cause) =>
    (after, [.log .drainer (Drainage.faultLine s.closed.stream.name (.buffer cpu cause))])
  | .failed .closed =>
    ({ after.onStream .closed .dropReader with draining := false },
      [.log .drainer (Drainage.endLine s.closed.stream.name s.drained),
        .release (.stream closedName)])
  | .pending | .noReader => (after, [])

/-- The line on the end of a run. -/
def causeLine (cause : ShutdownCause) : Log.Line := .debug ("shutdown cause: " ++ cause.text)

/-- The run waits for the coordinator.  When it is told the cause, it gives the stream of opened
connections up and closes the other one. -/
def await (s : Session) : Session × List Effect :=
  let (answer, coordinator, lines) := s.coordinator.wait
  let after := { s with coordinator }
  match answer with
  | .cause cause =>
    ({ (after.onStream .opened .dropReader).onStream .closed .close with told := true },
      Effect.mainLines (lines ++ [causeLine cause]) ++ [.release (.stream openedName)])
  | .pending | .noHandle => (after, Effect.mainLines lines)

/-- The session after a step, and what is done. -/
def step (r : Resolver) (s : Session) : Step → Session × List Effect
  | .stream .opened .read => if s.consuming then s.consume r else (s, [])
  | .stream .closed .read => if s.draining then s.drain else (s, [])
  -- A stream is given up by its reader alone, and not before it has ended.
  | .stream _ .dropReader => (s, [])
  | .stream side x => (s.onStream side x, ((s.fanIn side).lines x).map (.log .pump))
  | .fire name => ({ s with coordinator := (s.coordinator.fire name).2 }, [])
  | .turn first =>
    let (coordinator, lines) := s.coordinator.turn first
    ({ s with coordinator }, Effect.mainLines lines)
  -- The coordinator is waited for once, after the consumer.
  | .wait => if s.consuming || s.told then (s, []) else s.await

/-- The session after the steps of a list, and all that is done. -/
def run (r : Resolver) (s : Session) : List Step → Session × List Effect
  | [] => (s, [])
  | x :: rest =>
    let (s, effects) := s.step r x
    let (s, more) := run r s rest
    (s, effects ++ more)

/-- The tasks as they begin. -/
def start (opened closed : FanIn) (consumer : Consumer AllowMap) : Session where
  coordinator := .arm opened.stream
  pumps := opened.pumps
  consumer := consumer
  closed := closed

/-- A signal comes, unless one has come before, and every task ends. -/
def ending (signal : String) : List Step :=
  [.fire signal, .turn .trigger, .turn .trigger, .turn .trigger, .stream .opened .read, .wait,
    .stream .closed .read]

/-- All that waits in the buffers of a stream goes through it, read by read, and is dealt with. -/
def throughput (s : Session) (side : Side) : List Step :=
  (s.fanIn side).pumps.zipIdx.flatMap fun (p, i) =>
    p.reads.flatMap fun read =>
      let count := (read.samples p.cpu).length
      .stream side (.fetch i) :: List.replicate count (.stream side (.push i)) ++
        List.replicate count (.stream side .read)

end Session

end EgressControl.Engine
