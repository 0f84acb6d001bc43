import EgressControl.Kernel.Perf
import EgressControl.Stream

/-! # From many buffers to one stream

Every processor has a `Pump`.  It reads the buffer of its processor and pushes what it finds into
the stream, sample by sample; it waits while the stream is full, and reads again when nothing of
the last read is left.

`FanIn` is a stream with the pumps that feed it.  A `FanIn.Step` is one step of a pump (`fetch`,
`push`, `stop`) or of the reader (`read`, `dropReader`), or a `close` by anyone; a list of them is
one interleaving.  The stream keeps its sender as long as a pump is running (`settle`). -/

namespace EgressControl

/-- What one read of a perf buffer gives. -/
inductive BufferRead where
  | batch (b : Perf.Batch)
  | failed (cause : PerfError)
  deriving DecidableEq

namespace BufferRead

/-- What goes into the stream after a read: its samples, or its failure. -/
def samples (cpu : Nat) : BufferRead → List Sample
  | batch b => b.samples.map .bytes
  | failed cause => [.fault cpu cause]

/-- The lines on a read, which there are if samples were lost. -/
def lines (name : String) (cpu : Nat) : BufferRead → List Log.Line
  | batch b => if b.lost > 0 then [Perf.lostLine name cpu b.lost] else []
  | failed _ => []

end BufferRead

/-- The task that reads the buffer of one processor. -/
structure Pump where
  cpu : Nat
  /-- What the reads to come will give. -/
  reads : List BufferRead
  /-- What has been read and not yet pushed. -/
  batch : List Sample := []
  running : Bool := true

namespace Pump

/-- Reads the buffer, if nothing of the last read is left and there is anything to read. -/
def fetch (p : Pump) : Pump :=
  match p.batch, p.reads with
  | [], r :: rest => { p with reads := rest, batch := r.samples p.cpu }
  | _, _ => p

/-- Pushes one sample.  It stays where it is while the stream is full; without a reader the pump
has come to its end. -/
def push (p : Pump) (s : Stream) : Pump × Stream :=
  match p.batch with
  | [] => (p, s)
  | x :: rest =>
    match s.send x with
    | (.sent, s) => ({ p with batch := rest }, s)
    | (.full, s) => (p, s)
    | (.noReader, s) | (.noSender, s) => ({ p with running := false }, s)

/-- Comes to an end if the stream is closed, which a pump notices between two reads. -/
def stop (p : Pump) (s : Stream) : Pump :=
  if s.closed ∧ p.batch.isEmpty then { p with running := false } else p

/-- The lines of the read that `fetch` takes. -/
def fetchLines (p : Pump) (name : String) : List Log.Line :=
  match p.batch, p.reads with
  | [], r :: _ => r.lines name p.cpu
  | _, _ => []

/-- The lines on the end to which `stop` comes. -/
def stopLines (p : Pump) (s : Stream) : List Log.Line :=
  if s.closed ∧ p.batch.isEmpty then [Perf.stoppedLine s.name p.cpu] else []

end Pump

/-- A stream and the pumps that feed it. -/
structure FanIn where
  stream : Stream
  pumps : List Pump

namespace FanIn

/-- Whose turn it is, and what is done. -/
inductive Step where
  | fetch (pump : Nat)
  | push (pump : Nat)
  | stop (pump : Nat)
  | read
  | close
  | dropReader
  deriving DecidableEq, Repr

/-- The stream loses its sender when no pump is running any more. -/
def settle (f : FanIn) : FanIn :=
  if f.pumps.any (·.running) then f else { f with stream := f.stream.dropSender }

/-- An open stream with the given buffers: processors, and what the reads of each will give. -/
def start (name : String) (buffers : List (Nat × List BufferRead)) : FanIn :=
  settle
    { stream := { name, capacity := Stream.perfCapacity }
      pumps := buffers.map fun (cpu, reads) => { cpu, reads } }

/-- A pump does something, if it is running. -/
def turn (f : FanIn) (pump : Nat) (act : Pump → Stream → Pump × Stream) : FanIn :=
  match f.pumps[pump]? with
  | none => f
  | some p =>
    if p.running then
      let (p, stream) := act p f.stream
      settle { stream, pumps := f.pumps.set pump p }
    else f

/-- The pump with a number, if it is running. -/
def runningPump? (f : FanIn) (pump : Nat) : Option Pump := f.pumps[pump]?.filter (·.running)

/-- What a read of the stream has given, if it was a sample or the failure of a buffer. -/
def received : Stream.Answer → Option Sample
  | .sample raw => some (.bytes raw)
  | .failed (.buffer cpu cause) => some (.fault cpu cause)
  | .failed .closed | .pending | .noReader => none

/-- One step; the first part is what the reader has received by it. -/
def step (f : FanIn) : Step → Option Sample × FanIn
  | .fetch pump => (none, f.turn pump fun p s => (p.fetch, s))
  | .push pump => (none, f.turn pump Pump.push)
  | .stop pump => (none, f.turn pump fun p s => (p.stop s, s))
  | .read => (received f.stream.read.1, { f with stream := f.stream.read.2 })
  | .close => (none, { f with stream := f.stream.close })
  | .dropReader =>
    (none,
      settle
        { stream := f.stream.dropReader
          pumps := f.pumps.map fun p => { p with running := false } })

/-- What a step adds to the log. -/
def lines (f : FanIn) : Step → List Log.Line
  | .fetch pump => (f.runningPump? pump).elim [] (·.fetchLines f.stream.name)
  | .stop pump => (f.runningPump? pump).elim [] (·.stopLines f.stream)
  | .push _ | .read | .close | .dropReader => []

/-- The steps of a list, one after the other, and all that the reader has received. -/
def run (f : FanIn) : List Step → List Sample × FanIn
  | [] => ([], f)
  | s :: rest =>
    let (x, f) := f.step s
    let (xs, f) := f.run rest
    (x.toList ++ xs, f)

end FanIn

/-- The stream of buffers that have just been opened.  `reads` says of each processor what the reads
of its buffer will give. -/
def Perf.Feed.fanIn (f : Perf.Feed) (reads : Nat → List BufferRead) : FanIn :=
  .start f.name (f.cpus.map fun cpu => (cpu, reads cpu))

end EgressControl
