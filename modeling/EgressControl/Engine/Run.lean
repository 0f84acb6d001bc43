import EgressControl.Engine.Session
import EgressControl.Engine.Setup
import EgressControl.Seed

/-! # A run from beginning to end

`Engine.runUnder` sets a run up, deals with the connections until the run is ended, and gives up all
that it holds.  A `Schedule` says what happens meanwhile: what the perf buffers give, in which order
the tasks of the run do their steps, and when a signal comes.  `Engine.run` is a run in which the
signal comes after all that waits in the buffers has been dealt with.

What happened is in the `Outcome`: the effects in their order, what is left on the disk and in the
kernel's maps, and the figures of the run or the failure.  The one line that is left out is the one
that shows the whole configuration at the debug level once the mode is known: nothing reads it. -/

namespace EgressControl.Engine

/-- The figures of a completed run. -/
structure RunSummary where
  mode : Mode
  consumer : ConsumerStats
  /-- The number of samples on closed connections. -/
  closedEvents : Nat
  /-- The number of addresses that were allowed from the start. -/
  seeded : Nat
  /-- The number of addresses that were let in because of a name. -/
  allowExtended : Nat
  /-- The number of rows of the report. -/
  uniqueConnections : Nat
  deriving DecidableEq

/-- What a run comes to. -/
structure Outcome where
  result : Except SetupError RunSummary
  effects : List Effect
  disk : Disk
  /-- The maps that the kernel made for the run, as they are at the end. -/
  maps : KernelMaps
  /-- The report of the run. -/
  report : Report := {}
  /-- The addresses that were let in because of a name. -/
  extended : AddressSet := .empty

/-- What happens around a run once it is set up. -/
structure Schedule where
  /-- What the reads of the buffer of a processor give, for each stream. -/
  reads : Perf.Feed → Nat → List BufferRead
  /-- What the tasks do, one step after the other, from the session as it begins. -/
  steps : Session → List Session.Step
  /-- The signal that comes after these steps, unless one has come before. -/
  signal : String

/-- A schedule in which the records that wait in the kernel's buffers are dealt with, first those on
opened connections, and nothing else happens before the signal comes. -/
def Schedule.quiet (k : Kernel) (signal : String) : Schedule where
  reads feed cpu := if cpu = k.sampleProcessor then (feed.batches k).map .batch else []
  steps s :=
    -- The last read finds a stream ended that no processor feeds.
    s.throughput .opened ++ s.throughput .closed ++ [.stream .opened .read]
  signal := signal

/-- The line on a run that has begun. -/
def runningLine (mode : Mode) : Log.Line :=
  .info ("kntrl running in " ++ mode.name ++ " mode, press Ctrl-C to stop")

/-- The line on a summary that was written, or that could not be. -/
def summaryLine (path : String) : Option Reporter.ExportError → Log.Line
  | none => .info ("Summary written to " ++ Text.quoted path)
  | some e => .warn e.message

/-- Writes the summary if one is wanted. -/
def writeSummary (path : Option String) (r : Reporter) : Reporter × List Effect :=
  match path with
  | none => (r, [])
  | some path =>
    let (r, failure) := r.writeSummary path
    (r, [.writeSummary path, .log .main (summaryLine path failure)])

/-- The line on the programs that are about to be detached. -/
def detachingLine (attachments : List Attachment) : Log.Line :=
  .info ("Detaching " ++ attachments.length.repr ++ " program(s): " ++
    ", ".intercalate (attachments.map (·.program)))

/-- The line on the size of the allow list at the end. -/
def allowSizeLine (store : AllowMap) : Log.Line :=
  .debug ("allow-list holds " ++ store.addresses.length.repr ++ " address(es) at exit")

/-- Gives up the attachments, the map of allowed addresses and the collection. -/
def release (x : Context) (store : AllowMap) : List Effect :=
  .log .main (detachingLine x.attachments) :: x.attachments.flatMap Effect.releaseAttachment ++
    [.log .main (allowSizeLine store), releaseAllow,
     .log .main (Collection.releaseLine x.collection.path),
     .release (.collection x.collection.path)]

/-- The tasks of a run that has been set up. -/
def Held.session (held : Held) (schedule : Schedule) (reporter : Reporter) : Session :=
  .start (held.opened.fanIn (schedule.reads held.opened))
    (held.closed.fanIn (schedule.reads held.closed)) { allow := held.context.allow, reporter }

/-- The tasks of a run when all of them have ended, and what they have done. -/
def Held.finish (held : Held) (r : Resolver) (schedule : Schedule) (reporter : Reporter) :
    Session × List Effect :=
  let session := held.session schedule reporter
  session.run r (schedule.steps session ++ Session.ending schedule.signal)

/-- Deals with connections until the run is ended, and gives up all that is held. -/
def operate (c : Config) (r : Resolver) (schedule : Schedule) (mode : Mode) (reporter : Reporter)
    (held : Held) (maps : KernelMaps) (before : List Effect) : Outcome :=
  let x := held.context
  let (session, sessionEffects) := held.finish r schedule reporter
  let k := session.consumer
  let (cleaned, cleanLines) := k.reporter.clean
  let (reporter, summaryEffects) := writeSummary c.summaryFile cleaned
  { result := .ok
      { mode := mode
        consumer := k.stats
        closedEvents := session.drained
        seeded := x.seeded
        allowExtended := k.allow.extendedCount
        uniqueConnections := reporter.report.connectionCount }
    effects := before ++ [.log .main (runningLine mode)] ++ sessionEffects ++
      [.print reporter.report.printed] ++ Effect.mainLines cleanLines ++ summaryEffects ++
      release x k.allow.store
    disk := reporter.disk
    maps := maps.insert AllowManager.mapName k.allow.store.map
    report := reporter.report
    extended := k.allow.extended }

/-- The effects of collecting the addresses that are allowed from the start. -/
def seedEffects (sources : SeedSources) (seeds : Seed.Collection) : List Effect :=
  sources.nameservers.toList.map .readNameservers ++ seeds.queries.map .lookUp ++
    Effect.mainLines seeds.logs

/-- What a run comes to that could not be set up. -/
def failed (e : SetupError) (effects : List Effect) (disk : Disk) (maps : KernelMaps) : Outcome :=
  { result := .error e, effects, disk, maps }

/-- A run under a schedule. -/
def runUnder (c : Config) (h : Host) (r : Resolver) (schedule : Schedule) : Outcome :=
  let checked := [.checkMode c.mode]
  match Mode.parse c.mode with
  | .error e => failed (.config e) checked h.disk .empty
  | .ok mode =>
    let created := checked ++ c.reportFile.toList.map .createReport
    match Reporter.new c.reportFile h.disk h.clock with
    | .error e => failed (.reporter e) created h.disk .empty
    | .ok reporter =>
      let seeds := Seed.collect c.seed reporter.disk r
      let seeded := created ++ seedEffects c.seed seeds
      let part := setUp c h reporter.disk mode seeds.addresses.toList .empty
      let effects := seeded ++ part.effects
      match part.result with
      | .error e => failed e effects reporter.disk part.maps
      | .ok held => operate c r schedule mode reporter held part.maps effects

/-- A run that a signal ends once every record that waits in a buffer has been dealt with. -/
def run (c : Config) (h : Host) (r : Resolver) (signal : String) : Outcome :=
  runUnder c h r (.quiet h.kernel signal)

end EgressControl.Engine
