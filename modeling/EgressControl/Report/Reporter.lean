import EgressControl.Log
import EgressControl.Report.Basic
import EgressControl.Report.Journal
import EgressControl.Text.Quoted

/-! # Keeping the report

A `Reporter` holds the report of a run, the log of connections if there is one, and the disk on
which log and summary are written.  Trouble with the log is told and otherwise passed over: the
report itself does not depend on it. -/

namespace EgressControl

/-- The report of a run and the files that belong to it. -/
structure Reporter where
  report : Report
  /-- The log of connections, while it is open. -/
  journal : Option Report.Journal
  disk : Disk
  /-- The time, as it is read for the first, second, … time. -/
  clock : Nat → String
  /-- How often the time has been read. -/
  readings : Nat

/-- A report without a log, on a disk on which nothing has been written yet. -/
instance : Inhabited Reporter := ⟨⟨{}, none, .fresh, fun _ => "", 0⟩⟩

namespace Reporter

/-- The time now. -/
def now (r : Reporter) : String := r.clock r.readings

/-- Begins a report; the log of connections begins empty. -/
def new (logPath : Option String) (d : Disk) (clock : Nat → String) : Except IoError Reporter :=
  match logPath with
  | none => .ok ⟨{}, none, d, clock, 0⟩
  | some path =>
    match d.create path with
    | .ok (key, d) => .ok ⟨{}, some { path, key }, d, clock, 0⟩
    | .error e => .error e

/-- A connection as the log shows it. -/
def observation (timestamp : String) (c : Connection) (domains : List String) (allowed : Bool) :
    Report.Observation where
  timestamp := timestamp
  pid := c.pid
  task := c.task
  destination := c.destination
  port := c.port
  domains := domains
  allowed := allowed

/-- The line on a connection that could not be written down. -/
def appendLine (path : String) (e : IoError) : Log.Line :=
  .warn ("failed to append to report " ++ Text.quoted path ++ ": " ++ e.message)

/-- Takes in a connection and writes it down. -/
def record (r : Reporter) (c : Connection) (domains : List String) (allowed : Bool) :
    Reporter × List Log.Line :=
  let report := r.report.record (Report.keyOf c) domains allowed
  match r.journal with
  | none => ({ r with report }, [])
  | some j =>
    let w := j.append r.disk (observation r.now c domains allowed).toJson
    ({ r with report, journal := some w.journal, disk := w.disk, readings := r.readings + 1 },
      (w.failure.map (appendLine j.path)).toList)

/-- The report takes in a connection whatever becomes of the log. -/
theorem report_record (r : Reporter) (c : Connection) (domains : List String) (allowed : Bool) :
    (r.record c domains allowed).1.report = r.report.record (Report.keyOf c) domains allowed := by
  unfold record
  split <;> rfl

/-- The line on a log that could not be finished. -/
def flushLine (path : String) (e : IoError) : Log.Line :=
  .warn ("failed to flush report " ++ Text.quoted path ++ ": " ++ e.message)

/-- Finishes and closes the log. -/
def clean (r : Reporter) : Reporter × List Log.Line :=
  match r.journal with
  | none => (r, [])
  | some j =>
    let w := j.flush r.disk
    ({ r with journal := none, disk := w.disk }, (w.failure.map (flushLine j.path)).toList)

/-- Why the summary was not written. -/
inductive ExportError where
  | create (path : String) (cause : IoError)
  | write (path : String) (cause : IoError)
  deriving DecidableEq, Repr

/-- The wording of the failure. -/
def ExportError.message : ExportError → String
  | create path cause =>
    "Failed to create output file: " ++ Text.quoted path ++ ": " ++ cause.message
  | write path cause =>
    "Failed to write to output file: " ++ Text.quoted path ++ ": " ++ cause.message

/-- Writes the summary into a file. -/
def writeSummary (r : Reporter) (path : String) : Reporter × Option ExportError :=
  let text := (r.report.summary r.now).render
  let r := { r with readings := r.readings + 1 }
  match r.disk.create path with
  | .error e => (r, some (.create path e))
  | .ok (key, disk) =>
    match disk.writeAt key 0 text.toUTF8 with
    | .error e => ({ r with disk }, some (.write path e))
    | .ok disk => ({ r with disk }, none)

end Reporter

end EgressControl
