import EgressControl.Proofs.Json.Documents
import EgressControl.Proofs.Json.Printable
import EgressControl.Proofs.Report.Journal
import EgressControl.Proofs.Text.Lines

/-!
# The log of connections

A reporter that keeps a log on a disk that accepts it writes one line for each call, whatever names
occur in it (`log_tells_every_call`).  Each line is read back as an observation of its call, and to
take in these observations one after the other gives the same report as the calls themselves.

The run is followed with what the log holds as its invariant (`Reporter.Logs`): each call adds the
line of one observation.
-/

namespace EgressControl

open Report (Observation Journal)

namespace Reporter

/-- A call of `record`. -/
structure Call where
  connection : Connection
  domains : List String
  allowed : Bool

/-- Takes in one call after the other; also what is told meanwhile. -/
def recordAll (r : Reporter) : List Call → Reporter × List Log.Line
  | [] => (r, [])
  | c :: cs =>
    let w := r.record c.connection c.domains c.allowed
    let rest := w.1.recordAll cs
    (rest.1, w.2 ++ rest.2)

/-- The observations that are written down on the way. -/
def observed (r : Reporter) : List Call → List Observation
  | [] => []
  | c :: cs =>
    observation r.now c.connection c.domains c.allowed ::
      (r.record c.connection c.domains c.allowed).1.observed cs

/-- An observation shows a call. -/
structure Shows (o : Observation) (c : Call) : Prop where
  pid : o.pid = c.connection.pid
  task : o.task = c.connection.task
  destination : o.destination = c.connection.destination
  port : o.port = c.connection.port
  domains : o.domains = c.domains
  allowed : o.allowed = c.allowed

/-- Each observation `Shows` its call, in the order of the calls. -/
private theorem shows_observed (r : Reporter) (calls : List Call) :
    List.Forall₂ Shows (r.observed calls) calls := by
  induction calls generalizing r with
  | nil => exact .nil
  | cons c cs ih => exact .cons ⟨rfl, rfl, rfl, rfl, rfl, rfl⟩ (ih _)

/-! ## The report -/

/-- `recordAll` brings each call into the report, whatever becomes of the log. -/
theorem report_recordAll (r : Reporter) (calls : List Call) :
    (r.recordAll calls).1.report =
      calls.foldl (fun report c => report.record (Report.keyOf c.connection) c.domains c.allowed)
        r.report := by
  induction calls generalizing r with
  | nil => rfl
  | cons c cs ih => rw [recordAll, ih, report_record, List.foldl_cons]

/-- The call that an observation shows.  The time of the connection is not written down. -/
def replay (time : Observation → UInt64) (o : Observation) : Call where
  connection := ⟨time o, o.pid, o.task, o.destination, o.port⟩
  domains := o.domains
  allowed := o.allowed

/-- To take in what is shown of calls gives the report of the calls. -/
private theorem report_replay {r s : Reporter} (hreport : s.report = r.report)
    {os : List Observation}
    {calls : List Call} (h : List.Forall₂ Shows os calls) (time : Observation → UInt64) :
    (s.recordAll (os.map (replay time))).1.report = (r.recordAll calls).1.report := by
  rw [report_recordAll, report_recordAll, List.foldl_map, hreport]
  generalize r.report = report
  -- What is shown of a call is all that the report takes in of it.
  induction h generalizing report with
  | nil => rfl
  | @cons o c os cs ho _ ih =>
    have hkey : Report.keyOf (replay time o).connection = Report.keyOf c.connection := by
      simp [Report.keyOf, replay, ho.task, ho.destination, ho.port]
    rw [List.foldl_cons, List.foldl_cons, hkey,
      show (replay time o).domains = c.domains from ho.domains,
      show (replay time o).allowed = c.allowed from ho.allowed]
    exact ih _

/-- A reporter begins with the empty report. -/
theorem report_new {logPath : Option String} {d : Disk} {clock : Nat → String} {r : Reporter}
    (h : new logPath d clock = .ok r) : r.report = {} := by
  unfold new at h
  split at h
  · rw [← Except.ok.inj h]
  · split at h
    · rw [← Except.ok.inj h]
    · simp at h

/-! ## The text of the log -/

/-- The lines of observations. -/
def logText (os : List Observation) : String := String.join (os.map fun o => o.render ++ "\n")

/-- The text of a log is made line by line. -/
theorem logText_cons (o : Observation) (os : List Observation) :
    logText (o :: os) = o.render ++ "\n" ++ logText os := String.join_cons

/-- There is no line feed within the line of an observation, since JSON escapes it. -/
private theorem render_no_newline (o : Observation) : '\n' ∉ o.render.toList := by
  intro hfeed
  have hprintable := Json.Value.printable_compact o.valid_toJson '\n' hfeed
  exact absurd hprintable (by decide)

/-- At its line feeds the text comes apart into the texts of the observations. -/
private theorem cut_logText (os : List Observation) :
    Text.cut (· = '\n') (logText os).toList =
      (os.map Observation.render).map String.toList ++ [[]] := by
  have htext : logText os = Text.unlines (os.map Observation.render) := by
    rw [logText, Text.unlines, List.map_map]
    rfl
  rw [htext, Text.cut_unlines_eq_iff]
  intro l hl
  obtain ⟨o, -, rfl⟩ := List.mem_map.mp hl
  exact render_no_newline o

/-! ## The course of the log -/

/-- The log is open and holds these bytes. -/
def Logs (r : Reporter) (path : String) (bytes : ByteArray) : Prop :=
  ∃ j, r.journal = some j ∧ j.Holds r.disk path bytes

variable {r : Reporter} {path : String} {bytes : ByteArray}

/-- A reporter whose file is no device that refuses writes `Logs` to it from the beginning. -/
private theorem logs_new {d : Disk} {clock : Nat → String} (h : new (some path) d clock = .ok r)
    (hdevice : d.find path ≠ .ok .fullDevice) : r.Logs path .empty := by
  unfold new at h
  dsimp only at h
  split at h
  · next key d' hcreate =>
    obtain ⟨hleads, ⟨rfl, hfull⟩ | rfl⟩ := Disk.leads_of_create hcreate
    · -- The full device is what the path leads to.
      exact absurd (hleads.find hfull) hdevice
    · have hfile : (d.write key (.file .empty)).nodes.get? key = some (.file .empty) := by
        rw [Disk.get?_write, if_pos rfl]
      rw [← Except.ok.inj h]
      exact ⟨_, rfl, .empty, ⟨hleads, hfile, rfl⟩, ByteArray.append_empty.symm⟩
  · simp at h

/-- A call adds the line of its observation. -/
private theorem logs_record (h : r.Logs path bytes) (c : Call) :
    (r.record c.connection c.domains c.allowed).2 = [] ∧
      (r.record c.connection c.domains c.allowed).1.Logs path (bytes ++
        ((observation r.now c.connection c.domains c.allowed).render ++ "\n").toUTF8) := by
  obtain ⟨j, hj, hholds⟩ := h
  have happend := Journal.append_holds hholds
    (observation r.now c.connection c.domains c.allowed).toJson
  unfold record
  simp only [hj, happend.failure]
  exact ⟨rfl, _, rfl, happend.holds⟩

/-- Each call adds its line to the log, and nothing is told of it. -/
private theorem logs_recordAll (h : r.Logs path bytes) (calls : List Call) :
    (r.recordAll calls).2 = [] ∧
      (r.recordAll calls).1.Logs path (bytes ++ (logText (r.observed calls)).toUTF8) := by
  induction calls generalizing r bytes with
  | nil =>
    refine ⟨rfl, ?_⟩
    show r.Logs path (bytes ++ .empty)
    rwa [ByteArray.append_empty]
  | cons c cs ih =>
    obtain ⟨htold, hlogs⟩ := logs_record h c
    obtain ⟨htold', hlogs'⟩ := ih hlogs
    refine ⟨by simp only [recordAll, htold, htold', List.append_nil], ?_⟩
    rw [ByteArray.append_assoc, ← Journal.toUTF8_append, ← logText_cons] at hlogs'
    exact hlogs'

/-- A log that is finished stands in its file. -/
private theorem readText_clean {text : String} (h : r.Logs path text.toUTF8) :
    r.clean.2 = [] ∧ r.clean.1.disk.readText path = .ok text := by
  obtain ⟨j, hj, hholds⟩ := h
  obtain ⟨hfailure, hdisk, -⟩ := Journal.onDisk_flush hholds
  unfold clean
  simp only [hj, hfailure]
  exact ⟨rfl, hdisk.leads.readText hdisk.file⟩

/-- `clean` closes the log. -/
theorem journal_clean (r : Reporter) : r.clean.1.journal = none := by
  unfold clean
  split
  · assumption
  · rfl

/-- Without a log the calls are counted, and that is all. -/
theorem recordAll_of_closed (h : r.journal = none) (calls : List Call) :
    r.recordAll calls = ({ r with report := (r.recordAll calls).1.report }, []) := by
  induction calls generalizing r with
  | nil => rfl
  | cons c cs ih =>
    -- Without a journal, recording touches the report alone.
    have hrecord : r.record c.connection c.domains c.allowed =
        ({ r with report := r.report.record (Report.keyOf c.connection) c.domains c.allowed },
          []) := by
      simp only [record, h]
    have hrest := ih (r := (r.record c.connection c.domains c.allowed).1) (by rw [hrecord]; exact h)
    rw [recordAll, hrest, hrecord]
    rfl

/-- Without a log nothing is written. -/
private theorem disk_recordAll (h : r.journal = none) (calls : List Call) :
    (r.recordAll calls).1.disk = r.disk := by
  rw [recordAll_of_closed h]

/-! ## The whole log -/

/-- After `calls` and `clean`, the log of `r` on `path` consists of the observations `os`. -/
structure Tells (r : Reporter) (path : String) (calls : List Call) (os : List Observation) :
    Prop where
  /-- `path` has one line for each observation, from which `Observation.parse?` gives it back, and
  nothing behind the last line feed. -/
  lines : ∃ (text : String) (lines : List String),
    (r.recordAll calls).1.clean.1.disk.readText path = .ok text ∧
    Text.cut (· = '\n') text.toList = lines.map String.toList ++ [[]] ∧
    lines.map Observation.parse? = os.map some
  /-- Each observation `Shows` the call at its place. -/
  shows : List.Forall₂ Shows os calls
  /-- To `replay` them into a new reporter gives the `report` of `r`. -/
  report : ∀ {logPath d clock fresh}, new logPath d clock = .ok fresh →
    ∀ time, (fresh.recordAll (os.map (replay time))).1.report = (r.recordAll calls).1.report
  /-- Calls after `clean` leave the disk as it is. -/
  closed : ∀ more, ((r.recordAll calls).1.clean.1.recordAll more).1.disk =
    (r.recordAll calls).1.clean.1.disk
  /-- Neither the calls nor `clean` told anything. -/
  told : (r.recordAll calls).2 ++ (r.recordAll calls).1.clean.2 = []

/-- On a path other than that of a full device, the log of a new reporter `Tells` every call: in
order, in a line of its own. -/
theorem log_tells_every_call {d : Disk} {clock : Nat → String}
    (hnew : new (some path) d clock = .ok r) (hdevice : d.find path ≠ .ok .fullDevice)
    (calls : List Call) : ∃ os, r.Tells path calls os := by
  have hshows := shows_observed r calls
  -- The journal starts on an empty file and each call adds its line, so `clean` leaves the
  -- lines in order.
  obtain ⟨htold, hlogs⟩ := logs_recordAll (logs_new hnew hdevice) calls
  rw [ByteArray.empty_append] at hlogs
  obtain ⟨hclean, hread⟩ := readText_clean hlogs
  refine ⟨r.observed calls, ?_, hshows, ?_, ?_, ?_⟩
  · refine ⟨_, _, hread, cut_logText _, ?_⟩
    rw [List.map_map]
    apply List.map_congr_left
    intro o _
    rw [Function.comp_apply, Observation.parse?_render]
  · intro logPath d clock fresh hfresh time
    exact report_replay (by rw [report_new hfresh, report_new hnew]) hshows time
  · exact disk_recordAll (journal_clean _)
  · rw [htold, hclean, List.append_nil]

/-- Names with quotes, backslashes and line feeds. -/
theorem log_tells_every_call_quoted :
    ∃ r, new (some "log.jsonl") .fresh (fun _ => "") = .ok r ∧
      Disk.fresh.find "log.jsonl" ≠ .ok .fullDevice ∧
      ∃ os, r.Tells "log.jsonl"
        [⟨⟨1, 7, "a\n\"b\\", ⟨10, 0, 0, 1⟩, 443⟩, ["x.\n", "\u0001"], true⟩,
          ⟨⟨2, 7, "a\n\"b\\", ⟨10, 0, 0, 1⟩, 443⟩, [], false⟩] os := by
  -- Neither `find` nor `new` has an answer with decidable equality: a Boolean of it is
  -- evaluated.
  have hdevice : Disk.fresh.find "log.jsonl" ≠ .ok .fullDevice := fun h => by
    have hnone : (Disk.fresh.find "log.jsonl").toOption.isNone = true := by decide +kernel
    rw [h] at hnone
    contradiction
  cases hnew : new (some "log.jsonl") .fresh fun _ => "" with
  | error e =>
    have hok : (new (some "log.jsonl") .fresh fun _ => "").isOk = true := by decide +kernel
    rw [hnew] at hok
    contradiction
  | ok r => exact ⟨r, rfl, hdevice, log_tells_every_call hnew hdevice _⟩

end Reporter

end EgressControl
