import EgressControl.Proofs.Allow.Settled
import EgressControl.Proofs.Consumer.Steps
import EgressControl.Proofs.Consumer.Widening
import EgressControl.Proofs.Report.Rows
import Mathlib.Data.List.Dedup

/-!
# Report and allow list tell the same

A row of the report is marked as allowed if one of its connections was, and the allow list counts
the addresses that were let in.  The two are kept by different parts of a run, and a write may
fail; all the same they never disagree.

`Consistent` is the invariant: what is marked has been let in, what has been let in stands in a
row, and every address in a row is settled.  `Consistent.add` says that one connection keeps it,
`Consistent.foldl_add` that any number of them does.  `run_marks_exactly_extended` is the result for
a run.
-/

namespace EgressControl

/-! ## Rows and addresses -/

namespace Findings

/-- The report marks the addresses that the allow list counts as let in. -/
structure Consistent (r : Resolver) (f : Findings MemoryStore) : Prop where
  backed : f.allow.Backed r
  /-- A row is marked exactly if its address has been let in. -/
  marked : ∀ key row, f.reporter.report.rows.get? key = some row →
    (row.allowed = true ↔ f.allow.extended.contains key.destination = true)
  /-- No address of a row is let in any more. -/
  settled : ∀ key row, f.reporter.report.rows.get? key = some row →
    f.allow.Settled r key.destination
  /-- Every address that has been let in stands in a row. -/
  shown : ∀ x, f.allow.extended.contains x = true →
    ∃ key row, f.reporter.report.rows.get? key = some row ∧ key.destination = x

namespace Consistent

variable {r : Resolver} {f : Findings MemoryStore}

/-- Before the first connection. -/
private theorem of_empty (hextended : f.allow.extended = .empty)
    (hreport : f.reporter.report = {}) :
    Consistent r f where
  backed := .of_extended_eq_empty hextended
  marked := by simp [hreport]
  settled := by simp [hreport]
  shown := by simp [hextended, Table.contains]

/-- A connection keeps report and allow list together. -/
theorem add (h : Consistent r f) (c : Connection) : Consistent r (f.add r c) := by
  have hrows (key : Report.Key) :
      (f.add r c).reporter.report.rows.get? key =
        if key = Report.keyOf c then
          some (.count (Report.keyOf c) (r.namesOf c.destination)
            (f.allow.observe c.destination (r.namesOf c.destination)).allowed
            (f.reporter.report.rows.get? (Report.keyOf c)))
        else f.reporter.report.rows.get? key := by
    rw [Findings.add, Reporter.report_record, Report.get?_rows_record]
  have hself := AllowManager.settled_observe r f.allow c.destination
  have hanswer := AllowManager.allowed_iff_contains h.backed c.destination
  constructor
  case backed => exact h.backed.observe c.destination
  case marked =>
    intro key row hrow
    rw [hrows] at hrow
    split at hrow
    · next hkey =>
      subst hkey
      obtain rfl := Option.some.inj hrow
      rw [Report.Row.allowed_count, hanswer]
      refine ⟨?_, .inr⟩
      rintro (⟨old, hold, hmark⟩ | hin)
      · -- A mark that is there already has its address let in already.
        have hin := (h.marked _ old hold).mp hmark
        exact ((h.settled _ old hold).contains_observe_iff c.destination).mpr hin
      · exact hin
    · -- The row of another key is as it was, and so is whether its address is let in.
      exact (h.marked key row hrow).trans
        ((h.settled key row hrow).contains_observe_iff c.destination).symm
  case settled =>
    intro key row hrow
    rw [hrows] at hrow
    split at hrow
    · next hkey =>
      subst hkey
      exact hself
    · exact (h.settled key row hrow).observe c.destination
  case shown =>
    intro x hx
    by_cases hxc : x = c.destination
    · exact ⟨Report.keyOf c, _, (hrows _).trans (if_pos rfl), hxc.symm⟩
    · -- Another address was let in before, and its row is still there.
      have hold : f.allow.extended.contains x = true := by
        rcases AllowManager.observe_lets_in_or_not r f.allow c.destination with
          ⟨hm, -, -⟩ | ⟨store, -, -, hm, -⟩
        · rwa [Findings.add, hm] at hx
        · rw [Findings.add, hm] at hx
          exact (Table.contains_insert.mp hx).resolve_left hxc
      obtain ⟨key, row, hrow, rfl⟩ := h.shown x hold
      have hkey : key ≠ Report.keyOf c := fun hkey => hxc (congrArg Report.Key.destination hkey)
      exact ⟨key, row, (hrows key).trans ((if_neg hkey).trans hrow), rfl⟩

/-- Any number of connections keeps report and allow list together. -/
theorem foldl_add (h : Consistent r f) (cs : List Connection) :
    Consistent r (cs.foldl (Findings.add r) f) := by
  induction cs generalizing f with
  | nil => exact h
  | cons c cs ih => exact ih (h.add c)

/-- The addresses of the marked rows are those that have been let in, if repetitions are left
out. -/
private theorem keys_extended_perm (h : Consistent r f) :
    f.allow.extended.keys.Perm
      ((f.reporter.report.rows.entries.filter (·.2.allowed)).map (·.1.destination)).dedup := by
  refine (List.perm_ext_iff_of_nodup (Table.nodup_keys _) (List.nodup_dedup _)).mpr fun x => ?_
  simp only [← Table.contains_iff, List.mem_dedup, List.mem_map, List.mem_filter]
  constructor
  · intro hx
    obtain ⟨key, row, hrow, rfl⟩ := h.shown x hx
    exact ⟨(key, row), ⟨Table.get?_eq_some_iff.mp hrow, (h.marked key row hrow).mpr hx⟩, rfl⟩
  · rintro ⟨⟨key, row⟩, ⟨hentry, hmark⟩, rfl⟩
    exact (h.marked key row (Table.get?_eq_some_iff.mpr hentry)).mp hmark

end Consistent

end Findings

/-! ## A run -/

namespace Consumer

/-- In a run that begins with no `extended` addresses and an empty report, a row is `allowed`
exactly if its destination is `extended`.  So rows of one destination agree, `extendedCount` is
the number of destinations of `allowed` rows, and `lookup` finds each of these as `allowPresent`. -/
theorem run_marks_exactly_extended (r : Resolver) (m : AllowManager MemoryStore)
    (reporter : Reporter) (name : String) (xs : List Sample) (hextended : m.extended = .empty)
    (hreport : reporter.report = {}) :
    let k := ((starting m reporter).run r none (.holding name xs)).consumer
    let rows := k.reporter.report.rows
    (∀ key row, rows.get? key = some row →
      (row.allowed = true ↔ k.allow.extended.contains key.destination = true)) ∧
    (∀ key row key' row', rows.get? key = some row → rows.get? key' = some row' →
      key.destination = key'.destination → row.allowed = row'.allowed) ∧
    k.allow.extendedCount =
      ((rows.entries.filter (·.2.allowed)).map (·.1.destination)).dedup.length ∧
    (∀ key row, rows.get? key = some row → row.allowed = true →
      k.allow.store.lookup key.destination = .ok (some allowPresent)) := by
  intro k rows
  -- `Consistent` holds of the starting findings and is kept by each connection taken up.
  have h : Findings.Consistent r k.findings := by
    have hstart : Findings.Consistent r (starting m reporter).findings :=
      .of_empty hextended hreport
    have hsteps := hstart.foldl_add (xs.filterMap Sample.connection?)
    rw [← findings_steps] at hsteps
    simp only [k, run_holding]
    exact hsteps
  refine ⟨h.marked, ?_, ?_, ?_⟩
  · intro key row key' row' hrow hrow' hdest
    rw [Bool.eq_iff_iff, h.marked key row hrow, h.marked key' row' hrow', hdest]
  · have hlength := h.keys_extended_perm.length_eq
    rwa [Table.keys, List.length_map] at hlength
  · intro key row hrow hmark
    exact (h.backed _ ((h.marked key row hrow).mp hmark)).2

/-- An allow list with room for one address, and two texts that names may contain. -/
def roomForOne : AllowManager MemoryStore := ⟨{ capacity := some 1 }, ["example", "."], .empty⟩

/-- Two connections to one address, and between them one to an address that finds no room. -/
def threeConnections : List Sample :=
  [.bytes (List.replicate 36 7), .bytes (List.replicate 36 0),
   .bytes (List.replicate 34 7 ++ [80, 0])]

/-- The row of the connections to the first address and a port. -/
def sevensRow (port : UInt16) : Report.Key :=
  ⟨.ofList (List.replicate 16 '\x07'), ⟨7, 7, 7, 7⟩, port⟩

/-- Both rows of the address that was let in are marked, and the row of the one that found no room
is not, although its name is allowed. -/
theorem run_marks_threeConnections :
    let k := (run sevens none (starting roomForOne default)
      (.holding "ipv4_events" threeConnections)).consumer
    let rows := k.reporter.report.rows
    roomForOne.extended = .empty ∧ (default : Reporter).report = {} ∧
    (∃ row row' other, rows.get? (sevensRow 0x0707) = some row ∧
      rows.get? (sevensRow 80) = some row' ∧ rows.get? ⟨"", ⟨0, 0, 0, 0⟩, 0⟩ = some other ∧
      row.allowed = true ∧ row'.allowed = row.allowed ∧ other.allowed = false ∧
      k.allow.store.lookup ⟨7, 7, 7, 7⟩ = .ok (some allowPresent)) := by
  intro k rows
  obtain ⟨hmarked, hsame, -, hpresent⟩ := run_marks_exactly_extended sevens roomForOne default
    "ipv4_events" threeConnections rfl rfl
  have hk : k = ((starting roomForOne default).steps sevens threeConnections).1 := by
    simp only [k, run_holding]
  -- The table and the extended addresses are evaluated; which rows are marked then follows.
  have hfound : rows.contains (sevensRow 0x0707) = true ∧ rows.contains (sevensRow 80) = true ∧
      rows.contains ⟨"", ⟨0, 0, 0, 0⟩, 0⟩ = true := by
    simp only [rows, hk]
    decide +kernel
  have hextended : k.allow.extended.contains ⟨7, 7, 7, 7⟩ = true ∧
      k.allow.extended.contains ⟨0, 0, 0, 0⟩ = false := by
    simp only [hk]
    decide +kernel
  obtain ⟨row, hrow⟩ := Option.isSome_iff_exists.mp hfound.1
  obtain ⟨row', hrow'⟩ := Option.isSome_iff_exists.mp hfound.2.1
  obtain ⟨other, hother⟩ := Option.isSome_iff_exists.mp hfound.2.2
  have hmark : row.allowed = true := (hmarked _ row hrow).mpr hextended.1
  refine ⟨rfl, rfl, row, row', other, hrow, hrow', hother, hmark, ?_, ?_, ?_⟩
  · exact hsame _ row' _ row hrow' hrow rfl
  · refine Bool.eq_false_iff.mpr fun hother' => ?_
    have hin := (hmarked _ other hother).mp hother'
    exact absurd (hin.symm.trans hextended.2) (by decide)
  · exact hpresent _ row hrow hmark

end Consumer

end EgressControl
