import EgressControl.Proofs.Consumer.Steps
import EgressControl.Proofs.Report.Rows
import Mathlib.Algebra.Order.BigOperators.Group.List
import Mathlib.Algebra.Order.Group.Nat
import Mathlib.Data.List.Forall2

/-!
# Every sample is accounted for once

A sample is a record, or it has another length, or it could not be read.  The consumer counts it
under one of these, and what is no record leaves no trace but its count and its line in the log.

- `length_eq_countP`: the three kinds are all there are, and no sample is of two kinds;
- `drain_eq`: what the reader of closed connections counts and tells;
- `run_accounts_for_samples`: both readers over one list of samples, next to the run that is
  given the records alone;
- `counts_lt_size`: the counts fit words of 64 bits, unless there are more samples than such a word
  can count.
-/

namespace EgressControl

/-! ## The three kinds -/

/-- Every sample is of exactly one kind. -/
theorem Sample.length_eq_countP (xs : List Sample) :
    xs.countP isRecord + xs.countP isMalformed + xs.countP isFault = xs.length := by
  induction xs with
  | nil => rfl
  | cons x xs ih =>
    rw [List.length_cons, ← ih]
    simp only [List.countP_cons]
    cases x with
    | fault cpu cause => simp [isRecord, isMalformed, isFault]; omega
    | bytes raw =>
      by_cases h : raw.length = Record.size
      · simp [isRecord, isMalformed, isFault, h]; omega
      · simp [isRecord, isMalformed, isFault, h]; omega

/-- A sample that has been read is a record or malformed. -/
private theorem Sample.countP_not_isFault (xs : List Sample) :
    xs.countP (fun x => !x.isFault) = xs.countP isRecord + xs.countP isMalformed := by
  have hkinds := length_eq_countP xs
  have hread := List.length_eq_countP_add_countP isFault (l := xs)
  have hnot : xs.countP (fun x => decide ¬x.isFault = true) = xs.countP (fun x => !x.isFault) :=
    List.countP_congr fun x _ => by simp
  omega

/-! ## The stream of closed connections -/

namespace Drainage

/-- The lines on what a read of closed connections gave. -/
def linesOf (name : String) : Sample → List Log.Line
  | .bytes raw => sampleLines raw
  | .fault cpu cause => [faultLine name (.buffer cpu cause)]

/-- An open stream is read until nothing waits in it; what could be read is counted. -/
theorem drain_eq {s : Stream} (hr : s.hasReader = true) (hc : s.closed = false) :
    drain s =
      ⟨s.queue.countP fun x => !x.isFault, { s with queue := [] },
        s.queue.flatMap (linesOf s.name)⟩ := by
  induction hq : s.queue generalizing s with
  | nil =>
    -- Nothing waits in the stream, so that to empty it is to leave it alone.
    have hs : { s with queue := [] } = s := by rw [← hq]
    rw [drain_nil hr hc hq, hs, List.countP_nil, List.flatMap_nil]
  | cons x xs ih =>
    have hrest := ih (s := { s with queue := xs }) hr hc rfl
    cases x with
    | bytes raw =>
      rw [drain_bytes hr hc hq, hrest]
      simp [Sample.isFault, linesOf]
    | fault cpu cause =>
      rw [drain_fault hr hc hq, hrest]
      simp [Sample.isFault, linesOf]

/-- The line on a connection that was closed. -/
def connectionLine (c : Connection) : Log.Line := .debug ("connection closed: " ++ c.display)

/-- Whether a line is about a connection that was closed. -/
def isConnectionLine (l : Log.Line) : Bool :=
  "connection closed: ".toList.isPrefixOf l.text.toList

/-- The line that a connection has in the log. -/
def Shows (x : Sample) (l : Log.Line) : Prop := ∃ c, x.connection? = some c ∧ l = connectionLine c

/-- The line on a closed connection is taken for one. -/
private theorem isConnectionLine_connectionLine (c : Connection) :
    isConnectionLine (connectionLine c) = true := by
  simp [isConnectionLine, connectionLine, Log.Line.debug]

/-- The line on a failed read is not taken for one on a closed connection. -/
private theorem isConnectionLine_faultLine (name : String) (e : ReadError) :
    isConnectionLine (faultLine name e) = false := by
  simp [isConnectionLine, faultLine, Log.Line.debug, List.isPrefixOf]

/-- A record has one line of its own, and nothing else has any. -/
private theorem filter_linesOf (name : String) (x : Sample) :
    (linesOf name x).filter isConnectionLine = (x.connection?.map connectionLine).toList := by
  cases x with
  | fault cpu cause => simp [linesOf, isConnectionLine_faultLine, Sample.connection?]
  | bytes raw =>
    simp only [linesOf, sampleLines, Sample.connection?]
    cases Record.decode? raw with
    | error e => rfl
    | ok record =>
      -- The line that is told has the text of `connectionLine`, and so its beginning.
      have := isConnectionLine_connectionLine (.ofRecord record)
      simp only [connectionLine] at this
      simp [this, connectionLine]

/-- The lines on closed connections are those of the records, one each and in their order. -/
private theorem forall₂_shows (name : String) (xs : List Sample) :
    List.Forall₂ Shows (xs.filter Sample.isRecord)
      ((xs.flatMap (linesOf name)).filter isConnectionLine) := by
  induction xs with
  | nil => exact .nil
  | cons x xs ih =>
    rw [List.flatMap_cons, List.filter_append, filter_linesOf]
    cases h : x.connection? with
    | none =>
      have hx := Sample.connection?_eq_none_iff.mp h
      rw [List.filter_cons_of_neg (by simp [hx])]
      exact ih
    | some c =>
      have hx : x.isRecord = true := by rw [← Sample.isSome_connection?, h]; rfl
      rw [List.filter_cons_of_pos hx]
      exact .cons ⟨c, h, rfl⟩ ih

end Drainage

/-! ## The stream of opened connections -/

/-- The report counts the connections that it takes in. -/
private theorem Findings.totalEvents_foldl_add {σ : Type} [AllowStore σ] (r : Resolver)
    (f : Findings σ)
    (cs : List Connection) :
    (cs.foldl (add r) f).reporter.report.totalEvents =
      f.reporter.report.totalEvents + cs.length := by
  induction cs generalizing f with
  | nil => rfl
  | cons c cs ih =>
    have hc : (f.add r c).reporter.report.totalEvents = f.reporter.report.totalEvents + 1 := by
      rw [add, Reporter.report_record]
      rfl
    rw [List.foldl_cons, ih, hc, List.length_cons]
    omega

/-- The rows of the report count the connections that it takes in. -/
private theorem Findings.counted_foldl_add {σ : Type} [AllowStore σ] (r : Resolver) (f : Findings σ)
    (cs : List Connection) :
    (cs.foldl (add r) f).reporter.report.counted = f.reporter.report.counted + cs.length := by
  induction cs generalizing f with
  | nil => rfl
  | cons c cs ih =>
    have hc : (f.add r c).reporter.report.counted = f.reporter.report.counted + 1 := by
      rw [add, Reporter.report_record, Report.counted_record]
    rw [List.foldl_cons, ih, hc, List.length_cons]
    omega

namespace Consumer

variable {σ : Type} [AllowStore σ]

/-- Leaving out what is no record makes no difference to allow list and report. -/
private theorem findings_steps_filter (r : Resolver) (k : Consumer σ) (xs : List Sample) :
    (k.steps r (xs.filter Sample.isRecord)).1.findings = (k.steps r xs).1.findings := by
  rw [findings_steps, findings_steps, Sample.filterMap_connection?_filter]

/-- As many samples report a connection as are records. -/
private theorem length_filterMap_connection? (xs : List Sample) :
    (xs.filterMap Sample.connection?).length = xs.countP Sample.isRecord := by
  rw [List.length_filterMap_eq_countP]
  exact List.countP_congr fun x _ => by rw [Sample.isSome_connection?]

/-- `totalEvents` grows by one for each record. -/
private theorem totalEvents_steps (r : Resolver) (k : Consumer σ) (xs : List Sample) :
    (k.steps r xs).1.reporter.report.totalEvents =
      k.reporter.report.totalEvents + xs.countP Sample.isRecord := by
  have h := congrArg (·.reporter.report.totalEvents) (findings_steps r k xs)
  simp only [Findings.totalEvents_foldl_add, length_filterMap_connection?] at h
  exact h

/-- `counted`, the sum of the counts of all rows, grows by one for each record. -/
private theorem counted_steps (r : Resolver) (k : Consumer σ) (xs : List Sample) :
    (k.steps r xs).1.reporter.report.counted =
      k.reporter.report.counted + xs.countP Sample.isRecord := by
  have h := congrArg (·.reporter.report.counted) (findings_steps r k xs)
  simp only [Findings.counted_foldl_add, length_filterMap_connection?] at h
  exact h

/-- Every sample is counted once, under `processed`, `malformed` or `readErrors`, and
`totalEvents` grows by `processed`.  Allow list and reporter are what the samples that are records
make of them alone.  `Drainage.run` counts every sample but the faults, and `Shows` one line for
each record, in order. -/
theorem run_accounts_for_samples (r : Resolver) (m : AllowManager σ) (reporter : Reporter)
    (name : String) (xs : List Sample) :
    let p := (starting m reporter).run r none (.holding name xs)
    let q := (starting m reporter).run r none (.holding name (xs.filter Sample.isRecord))
    let d := Drainage.run (.holding name xs)
    let stats := p.consumer.stats
    p.stream.read = (.failed .closed, p.stream) ∧
    stats.processed = xs.countP Sample.isRecord ∧
    stats.malformed = xs.countP Sample.isMalformed ∧
    stats.readErrors = xs.countP Sample.isFault ∧
    stats.processed + stats.malformed + stats.readErrors = xs.length ∧
    p.consumer.reporter.report.totalEvents = reporter.report.totalEvents + stats.processed ∧
    p.consumer.allow = q.consumer.allow ∧
    p.consumer.reporter = q.consumer.reporter ∧
    d.stream.read = (.failed .closed, d.stream) ∧
    d.drained = stats.processed + stats.malformed ∧
    ∃ body, d.logs = body ++ [Drainage.endLine name d.drained] ∧
      List.Forall₂ Drainage.Shows (xs.filter Sample.isRecord)
        (body.filter Drainage.isConnectionLine) := by
  have hstats : ((starting m reporter).steps r xs).1.stats = ConsumerStats.plus {} xs :=
    stats_steps r (starting m reporter) xs
  have hfindings := findings_steps_filter r (starting m reporter) xs
  have hdrain := Drainage.drain_eq (s := .holding name xs) rfl rfl
  -- Whatever is not a fault is drained, whether it decodes or not.
  have hdrained : (Drainage.run (.holding name xs)).drained =
      xs.countP Sample.isRecord + xs.countP Sample.isMalformed := by
    rw [← Sample.countP_not_isFault, Drainage.run, hdrain]
    rfl
  simp only [run_holding, hstats, hdrained, ConsumerStats.plus, Nat.zero_add]
  refine ⟨rfl, trivial, trivial, trivial, Sample.length_eq_countP xs, ?_, ?_, ?_, ?_, trivial, ?_⟩
  · exact totalEvents_steps r (starting m reporter) xs
  · exact (congrArg Findings.allow hfindings).symm
  · exact (congrArg Findings.reporter hfindings).symm
  · rw [Drainage.run, hdrain]
    rfl
  · refine ⟨xs.flatMap (Drainage.linesOf name), ?_, Drainage.forall₂_shows name xs⟩
    rw [← hdrained, Drainage.run, hdrain]
    rfl

/-! ## No count overflows -/

/-- Every count of a consumer and of its report fits a word of 64 bits, as long as fewer than
`UInt64.size` samples have been dealt with since the report was new. -/
theorem counts_lt_size (r : Resolver) (m : AllowManager σ) {reporter : Reporter}
    (hnew : reporter.report = {}) {xs : List Sample} (hlength : xs.length < UInt64.size) :
    let k := ((starting m reporter).steps r xs).1
    k.stats.processed < UInt64.size ∧ k.stats.malformed < UInt64.size ∧
      k.stats.readErrors < UInt64.size ∧ k.reporter.report.totalEvents < UInt64.size ∧
      ∀ row ∈ k.reporter.report.rows.values, row.connections < UInt64.size := by
  intro k
  have hstats : k.stats = ConsumerStats.plus {} xs := stats_steps r (starting m reporter) xs
  have hkinds := Sample.length_eq_countP xs
  have htotal : k.reporter.report.totalEvents = xs.countP Sample.isRecord := by
    simp [k, totalEvents_steps, starting, hnew]
  have hcounted : k.reporter.report.counted = xs.countP Sample.isRecord := by
    have hzero : ({} : Report).counted = 0 := rfl
    simp [k, counted_steps, starting, hnew, hzero]
  refine ⟨?_, ?_, ?_, by omega, fun row hrow => ?_⟩
  · simp only [hstats, ConsumerStats.plus]
    omega
  · simp only [hstats, ConsumerStats.plus]
    omega
  · simp only [hstats, ConsumerStats.plus]
    omega
  · -- The count of a row is one of those that make up `counted`.
    have hle : row.connections ≤ k.reporter.report.counted :=
      List.le_sum_of_mem (List.mem_map_of_mem hrow)
    omega

end Consumer

end EgressControl
