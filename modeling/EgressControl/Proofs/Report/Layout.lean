import EgressControl.Proofs.Report.Aggregation
import EgressControl.Proofs.Text.Lines

/-!
# The lines of the table

The table has a header, a line for each row and a line with the totals, and the columns of task and
destination are always of their width (`begins_rowText`).  Task names and the names of destinations
are shown as they are, though, so that a line feed in one of them breaks the line of its row.
`table_laid_out` says how many line feeds the table has, and that its lines are the header, the
rows and the totals exactly if no line feed is shown; `table_broken` is a table that is broken.
-/

namespace EgressControl

namespace Report

open Reporter (Call)
open Text (lineFeeds)

/-! ## The lines -/

/-- The columns of a line. -/
def columns (task destination connections allowed domains : String) : String :=
  Text.padRight 16 task ++ " " ++ Text.padRight 21 destination ++ " " ++
    Text.padLeft 6 connections ++ " " ++ Text.padRight 7 allowed ++ " " ++ domains

/-- The text of the first line. -/
def headerText : String := columns "TASK" "DESTINATION" "COUNT" "ALLOWED" "DOMAINS"

/-- The text on a row. -/
def rowText (row : Row) : String :=
  columns row.task row.destination row.connections.repr (if row.allowed then "yes" else "no")
    (",".intercalate row.domains)

/-- The text of the last line. -/
def totalsText (p : Report) : String :=
  p.totalEvents.repr ++ " event(s), " ++ p.connectionCount.repr ++ " connection(s)"

/-- The texts of which the table is made. -/
def lineTexts (p : Report) : List String :=
  headerText :: (p.rows.values.map rowText ++ [p.totalsText])

/-- `render` ends each of the `lineTexts` with a line feed. -/
private theorem render_eq_unlines (p : Report) : p.render = Text.unlines p.lineTexts := by
  have hrows : p.rows.values.map rowLine = (p.rows.values.map rowText).map (· ++ "\n") := by
    rw [List.map_map]
    rfl
  have htotals : p.totalsLine = p.totalsText ++ "\n" := by
    have hend : " connection(s)\n" = " connection(s)" ++ "\n" := rfl
    simp only [totalsLine, totalsText, hend, String.append_assoc]
  rw [render, hrows, htotals, lineTexts, Text.unlines, List.map_cons, List.map_append,
    String.join_cons, String.join_append, String.append_assoc]
  rfl

/-- There is no line feed in the header. -/
private theorem lineFeeds_headerText : lineFeeds headerText = 0 := by
  decide +kernel

/-- There is no line feed in the totals. -/
private theorem lineFeeds_totalsText (p : Report) : lineFeeds p.totalsText = 0 := by
  have hevents : lineFeeds " event(s), " = 0 := rfl
  have hend : lineFeeds " connection(s)" = 0 := rfl
  simp [totalsText, hevents, hend]

/-- There is no line feed in an address and a port. -/
private theorem lineFeeds_endpoint (x : Ipv4) (port : UInt16) :
    lineFeeds (x.text ++ ":" ++ port.toNat.repr) = 0 := by
  have htext : lineFeeds x.text = 0 := by
    rw [Text.lineFeeds_eq_zero_iff]
    exact Ipv4.notMem_text (by decide) (by decide) x
  have hcolon : lineFeeds ":" = 0 := rfl
  simp [htext, hcolon]

/-- The line feeds in the text on a row are those of the task and of the names. -/
private theorem lineFeeds_rowText {calls : List Call} {k : Key} {row : Row}
    (h : SumsUp calls k row) :
    lineFeeds (rowText row) = lineFeeds row.task + (row.domains.map lineFeeds).sum := by
  have hdestination : lineFeeds row.destination = 0 := h.destination ▸ lineFeeds_endpoint ..
  have hflag : lineFeeds (if row.allowed then "yes" else "no") = 0 := by
    split <;> rfl
  have hspace : lineFeeds " " = 0 := rfl
  have hcomma : lineFeeds "," = 0 := rfl
  simp [rowText, columns, hdestination, hflag, hspace, Text.lineFeeds_intercalate _ _ hcomma]

/-- A line begins with what is shown of a key, in columns of fixed width. -/
structure Begins (k : Key) (line : String) : Prop where
  columns : ∃ rest, line =
    Text.padRight 16 k.task ++ " " ++
      Text.padRight 21 (k.destination.text ++ ":" ++ k.port.toNat.repr) ++ " " ++ rest
  task : (Text.padRight 16 k.task).length = 16
  destination :
    (Text.padRight 21 (k.destination.text ++ ":" ++ k.port.toNat.repr)).length = 21

/-- The text of a row begins with the task and the destination in columns of their widths, if the
task is no longer than a task name. -/
theorem begins_rowText {calls : List Call} {k : Key} {row : Row} (h : SumsUp calls k row)
    (htask : k.task.length ≤ taskNameLength) : Begins k (rowText row) where
  columns := by
    rw [rowText, h.task, h.destination]
    simp only [Report.columns, String.append_assoc]
    exact ⟨_, rfl⟩
  task := by
    rw [Text.length_padRight]
    exact Nat.max_eq_left htask
  destination := by
    rw [Text.length_padRight]
    exact Nat.max_eq_left (Connection.length_endpoint_le k.destination k.port)

/-! ## The table -/

/-- What the table is for some calls. -/
structure LaidOut (p : Report) (calls : List Call) : Prop where
  /-- Between the first and the last text there is one for each key of a call.  They are in the
  order of the keys, and begin with what is shown of these. -/
  rows : ∃ keys : List Key, keys.Pairwise Key.Before ∧
    (∀ k, k ∈ keys ↔ ∃ c ∈ calls, keyOf c.connection = k) ∧ keys.length = p.connectionCount ∧
    List.Forall₂ Begins keys (p.rows.values.map rowText)
  /-- What is shown in them is the task of a call and the names of its destination. -/
  shown : ∀ row ∈ p.rows.values, ∃ c ∈ calls,
    row.task = c.connection.task ∧ row.domains = c.domains
  /-- Each text is ended by a line feed.  There are no others but those that are shown. -/
  lineFeeds : lineFeeds p.render = p.connectionCount + 2 +
    (p.rows.values.map fun row => lineFeeds row.task + (row.domains.map lineFeeds).sum).sum
  /-- The lines of the table are the texts exactly if no line feed is shown. -/
  lines : Text.cut (· = '\n') p.render.toList = p.lineTexts.map String.toList ++ [[]] ↔
    ∀ row ∈ p.rows.values, '\n' ∉ row.task.toList ∧ ∀ name ∈ row.domains, '\n' ∉ name.toList

/-- A report of calls whose tasks are task names is `LaidOut`. -/
private theorem foldl_laidOut {calls : List Call}
    (htask : ∀ c ∈ calls, c.connection.task.length ≤ taskNameLength) :
    LaidOut (calls.foldl take {}) calls := by
  have hrow : ∀ row ∈ (calls.foldl take {}).rows.values, ∃ k, SumsUp calls k row := by
    intro row hmem
    obtain ⟨e, he, rfl⟩ := List.mem_map.mp hmem
    exact ⟨e.1, sumsUp_of_get? (Table.get?_eq_some_iff.mpr he)⟩
  have hfeeds : ∀ row ∈ (calls.foldl take {}).rows.values, lineFeeds (rowText row) =
      lineFeeds row.task + (row.domains.map lineFeeds).sum := by
    intro row hmem
    obtain ⟨k, hk⟩ := hrow row hmem
    exact lineFeeds_rowText hk
  constructor
  case rows =>
    refine ⟨_, pairwise_keys _, fun k => mem_keys_iff, List.length_map .., ?_⟩
    rw [List.forall₂_map_right_iff]
    -- The key of a row is the one of a call, so that its task fits.
    refine (forall₂_sumsUp calls).imp fun k row hk => begins_rowText hk ?_
    obtain ⟨c, hc, rfl, -⟩ := hk.exists_call
    exact htask c hc
  case shown =>
    intro row hmem
    obtain ⟨k, hk⟩ := hrow row hmem
    obtain ⟨c, hc, rfl, hdomains⟩ := hk.exists_call
    exact ⟨c, hc, hk.task, hdomains⟩
  case lineFeeds =>
    have hlength : (calls.foldl take {}).rows.values.length =
        (calls.foldl take {}).connectionCount := List.length_map ..
    have hsum : (calls.foldl take {}).rows.values.map (lineFeeds ∘ rowText) = _ :=
      List.map_congr_left hfeeds
    -- Header and totals have no line feed, so that only those of the rows are left.
    rw [render_eq_unlines, Text.lineFeeds_unlines]
    simp only [lineTexts, List.length_cons, List.length_append, List.length_map, List.length_nil,
      hlength, List.map_cons, List.map_append, List.map_map, hsum, List.map_nil, List.sum_cons,
      List.sum_append, List.sum_nil, lineFeeds_headerText, lineFeeds_totalsText]
    omega
  case lines =>
    rw [render_eq_unlines, Text.cut_unlines_eq_iff]
    simp only [← Text.lineFeeds_eq_zero_iff, lineTexts, List.forall_mem_cons,
      List.forall_mem_append, List.forall_mem_map, lineFeeds_headerText, lineFeeds_totalsText,
      List.not_mem_nil, false_imp_iff, implies_true, true_and, and_true]
    refine forall₂_congr fun row hmem => ?_
    rw [hfeeds row hmem, Nat.add_eq_zero_iff, List.sum_eq_zero_iff_forall_eq_nat,
      List.forall_mem_map]

end Report

namespace Reporter

/-- A sample, the names of the destination that it reports, and whether one of them is allowed. -/
structure Sighting where
  raw : List UInt8
  domains : List String
  allowed : Bool

/-- The call that takes in a sample, if the sample is a record. -/
def Sighting.call? (s : Sighting) : Option Call :=
  match Record.decode? s.raw with
  | .ok record => some ⟨.ofRecord record, s.domains, s.allowed⟩
  | .error _ => none

/-- A task that has been sighted is no longer than a task name. -/
private theorem Sighting.length_task_le {s : Sighting} {c : Call} (h : s.call? = some c) :
    c.connection.task.length ≤ taskNameLength := by
  unfold Sighting.call? at h
  split at h
  · next record hdecode =>
    rw [← Option.some.inj h]
    exact length_taskName_le record.task
  · simp at h

/-- The table of a new reporter after any sightings is `LaidOut`. -/
theorem table_laid_out {logPath : Option String} {d : Disk} {clock : Nat → String} {r : Reporter}
    (h : new logPath d clock = .ok r) (seen : List Sighting) :
    (r.recordAll (seen.filterMap Sighting.call?)).1.report.LaidOut
      (seen.filterMap Sighting.call?) := by
  rw [report_recordAll, report_new h]
  apply Report.foldl_laidOut
  intro c hc
  obtain ⟨s, -, hs⟩ := List.mem_filterMap.mp hc
  exact s.length_task_le hs

/-- A record of a task with a line feed in its name. -/
def brokenName : Sighting where
  raw := List.replicate 14 0 ++ [97, 10, 98] ++ List.replicate 13 0 ++ [10, 0, 0, 1, 187, 1]
  domains := ["."]
  allowed := false

/-- A task name with a line feed is laid out, too. -/
theorem table_laid_out_brokenName :
    new none .fresh (fun _ => "") = .ok default ∧
      ((default : Reporter).recordAll ([brokenName].filterMap Sighting.call?)).1.report.LaidOut
        ([brokenName].filterMap Sighting.call?) := by
  have hnew : new none .fresh (fun _ => "") = .ok default := rfl
  exact ⟨hnew, table_laid_out hnew [brokenName]⟩

/-- One connection of this task makes two lines, and the first of them is but the beginning of the
name. -/
theorem table_broken :
    let p := ((default : Reporter).recordAll ([brokenName].filterMap Sighting.call?)).1.report
    p.connectionCount = 1 ∧ Text.lineFeeds p.render ≠ p.connectionCount + 2 ∧
      ['a'] ∈ Text.cut (· = '\n') p.render.toList := by
  decide +kernel

end Reporter

end EgressControl
